import Reckon.Http.Request
import Reckon.Proofs.Text.Lines

/-!
# Forms can be written

`Form.write` writes named values so that nothing in them can be taken for a mark between them: every
byte is escaped. `Form.read_write` says that any names and values are read back as they are. So
whichever decoders there are, there is a request for every equation in every session
(`Request.parameters_ofParameters`), and one for the variables of every session
(`Request.session_ofSession`).
-/

namespace Reckon

/-! ### Cutting what was joined -/

namespace Text

variable {separator : UInt8} {t u : Text}

/-- A text is cut at its first separator. -/
theorem cut_append (ht : separator ∉ t) (u : Text) :
    cut separator (t ++ separator :: u) = some (t, u) := by
  have hall : ∀ b ∈ t, (b != separator) = true := by
    intro b hb
    rw [bne_iff_ne]
    rintro rfl
    exact ht hb
  rw [cut, List.dropWhile_append_of_pos hall, List.takeWhile_append_of_pos hall,
    List.dropWhile_cons, List.takeWhile_cons]
  simp

end Text

/-! ### Escapes -/

namespace Form

/-- The text with an escape for every byte. -/
def escape (t : Text) : Text := t.flatMap fun b => '%'.toUInt8 :: Text.hex 2 b.toNat

/-- The two digits of a byte. -/
theorem map_digit?_hex : ∀ n < 256,
    (Text.hex 2 n).map (FloatText.digit? true) = [some (n / 16), some (n % 16)] := by
  decide +kernel

/-- There are only percent signs and digits in an escaped text. -/
theorem not_mem_escape {b : UInt8} (hb : b ≠ '%'.toUInt8) (hdigit : FloatText.digit? true b = none)
    (t : Text) : b ∉ escape t := by
  intro h
  obtain ⟨c, -, hc⟩ := List.mem_flatMap.mp h
  rcases List.mem_cons.mp hc with rfl | hc
  · exact hb rfl
  · have hmem := List.mem_map_of_mem (f := FloatText.digit? true) hc
    rw [map_digit?_hex _ c.toNat_lt, hdigit] at hmem
    simp at hmem

/-- **Escapes are undone.** -/
theorem unescape?_escape (plusIsBlank : Bool) (done t : Text) :
    unescape? plusIsBlank done (escape t) = some (done.reverse ++ t) := by
  induction t generalizing done with
  | nil => exact congrArg some (List.append_nil _).symm
  | cons b t ih =>
    -- the escape of the first byte is a percent sign and two digits
    obtain ⟨high, digits, hhex, hhigh, hdigits⟩ :=
      List.map_eq_cons_iff.mp (map_digit?_hex _ b.toNat_lt)
    obtain ⟨low, rest, rfl, hlow, hrest⟩ := List.map_eq_cons_iff.mp hdigits
    obtain rfl := List.map_eq_nil_iff.mp hrest
    have hescape : escape (b :: t) = '%'.toUInt8 :: high :: low :: escape t := by
      rw [escape, List.flatMap_cons, hhex]
      rfl
    have hbyte : (16 * (b.toNat / 16) + b.toNat % 16).toUInt8 = b := by
      rw [Nat.div_add_mod]
      exact UInt8.ofNat_toNat
    rw [hescape, unescape?, if_pos (beq_self_eq_true _), hhigh, hlow]
    dsimp only
    rw [hbyte, ih, List.reverse_cons, List.append_assoc, List.singleton_append]

/-! ### Forms -/

/-- A name with its value, as it is written. -/
def writePair (pair : Text × Text) : Text := escape pair.1 ++ '='.toUInt8 :: escape pair.2

/-- A form, as it is written. -/
def write (pairs : List (Text × Text)) : Text := Text.join ['&'.toUInt8] (pairs.map writePair)

/-- The equality sign is the only mark in a written pair. -/
theorem not_mem_writePair {b : UInt8} (hb : b ≠ '%'.toUInt8)
    (hdigit : FloatText.digit? true b = none) (hequal : b ≠ '='.toUInt8) (pair : Text × Text) :
    b ∉ writePair pair := by
  rw [writePair, List.mem_append, List.mem_cons]
  simp only [not_or]
  exact ⟨not_mem_escape hb hdigit _, hequal, not_mem_escape hb hdigit _⟩

theorem pair?_writePair (pair : Text × Text) : pair? (writePair pair) = some pair := by
  have hnone : (writePair pair).contains ';'.toUInt8 = false := by
    rw [← Bool.not_eq_true, List.contains_iff_mem]
    exact not_mem_writePair (by decide) (by decide) (by decide) pair
  have hcut : Text.cut '='.toUInt8 (writePair pair) = some (escape pair.1, escape pair.2) :=
    Text.cut_append (not_mem_escape (by decide) (by decide) _) _
  rw [pair?, hnone, hcut]
  simp [unescape?_escape]

/-- **What is written is read back**, and nothing is left out. -/
theorem read_write (pairs : List (Text × Text)) : read (write pairs) = ⟨pairs, true⟩ := by
  have hpairs : ((Text.splitOn '&'.toUInt8 (write pairs)).filter fun part => !part.isEmpty).map
      pair? = pairs.map some := by
    cases pairs with
    | nil => rfl
    | cons pair rest =>
      have hpieces : ∀ piece ∈ (pair :: rest).map writePair, '&'.toUInt8 ∉ piece := by
        intro piece hpiece
        obtain ⟨p, -, rfl⟩ := List.mem_map.mp hpiece
        exact not_mem_writePair (by decide) (by decide) (by decide) p
      have hfull : ∀ piece ∈ (pair :: rest).map writePair, (!piece.isEmpty) = true := by
        intro piece hpiece
        obtain ⟨p, -, rfl⟩ := List.mem_map.mp hpiece
        simp [writePair]
      rw [write, Text.splitOn_join (by simp) hpieces, List.filter_eq_self.mpr hfull, List.map_map]
      exact List.map_congr_left fun p _ => pair?_writePair p
  rw [read, hpairs]
  simp

end Form

/-! ### Requests -/

namespace Request

/-- The request for a path with a form behind it. -/
def ofForm (method path : Text) (pairs : List (Text × Text)) : Request :=
  bare method path (some (Form.write pairs))

variable {method path : Text} {pairs : List (Text × Text)}

theorem query_ofForm : (ofForm method path pairs).query = ⟨pairs, true⟩ := Form.read_write pairs

/-- The parameters are taken from the form, where there is nothing else. -/
theorem filledParameters?_ofForm :
    (ofForm method path pairs).filledParameters? = formParameters? ⟨pairs, true⟩ := by
  have hform : (ofForm method path pairs).filledParameters? =
      formParameters? ((⟨[], true⟩ : Form) ++ (ofForm method path pairs).query ++ ⟨[], true⟩) := rfl
  rw [hform, query_ofForm]
  exact congrArg (fun l => formParameters? ⟨l, true⟩) (List.append_nil pairs)

/-- The request to evaluate an equation in a session. -/
def ofParameters (p : Parameters) : Request :=
  ofForm (Text.lit "POST") (Text.lit "/eval")
    [(Text.lit "session", p.session), (Text.lit "equation", p.equation)]

/-- The request for the variables of a session. -/
def ofSession (name : Text) : Request :=
  ofForm (Text.lit "GET") (Text.lit "/vars") [(Text.lit "session", name)]

/-- **Every equation can be sent**, unless it is empty. -/
theorem parameters_ofParameters (d : Decoders) {p : Parameters} (h : p.equation ≠ []) :
    parameters d (ofParameters p) = .ok p := by
  have hread : (ofParameters p).filledParameters? = some p := filledParameters?_ofForm
  have hother : otherTypes.contains (ofParameters p).statedType = false := rfl
  have hjson : ((ofParameters p).statedType == Text.lit "application/json") = false := rfl
  simp only [parameters, hother, hjson, hread, Bool.false_eq_true, if_false]
  exact if_neg (by simpa using h)

theorem session_ofSession (name : Text) : (ofSession name).session = name := by
  have hquery : (ofSession name).query = ⟨[(Text.lit "session", name)], true⟩ := query_ofForm
  rw [session, hquery]
  rfl

end Request

end Reckon
