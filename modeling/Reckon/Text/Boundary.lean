import Reckon.Text.Rune

/-!
# Where runes begin and end

Reading a text rune by rune passes through certain places only, the boundaries of the text.
A place is given by what lies behind it, last byte first, and what lies ahead.

The main statement, `lastWidth_of_reached`, says that looking back from a boundary finds the rune
that reading forward has just passed, on every sequence of bytes. The reason is that a byte which
does not continue a sequence can only be the first byte of a rune (`reached_of_lead`), so the
nearest such byte is itself at a boundary, and reading on from there is deterministic.
-/

namespace Reckon

namespace Rune

/-- In a rune of two bytes only the second one is a continuation byte. -/
theorem trails_of_two? {b₀ b₁ : UInt8} {c : Char} (h : two? b₀ b₁ = some c) :
    isTrail b₀ = false ∧ isTrail b₁ = true := by
  unfold two? at h
  split at h
  · simp only [isTrail, UInt8.le_iff_toNat_le, Bool.and_eq_true, decide_eq_true_eq,
      Bool.and_eq_false_iff, decide_eq_false_iff_not, UInt8.reduceToNat] at *
    omega
  · contradiction

/-- In a rune of three bytes all but the first one are continuation bytes. -/
theorem trails_of_three? {b₀ b₁ b₂ : UInt8} {c : Char} (h : three? b₀ b₁ b₂ = some c) :
    isTrail b₀ = false ∧ isTrail b₁ = true ∧ isTrail b₂ = true := by
  simp only [three?, Option.ite_none_right_eq_some] at h
  have low : (128 : Nat) ≤ (if b₀ == 0xE0 then 0xA0 else 0x80 : UInt8).toNat := by split <;> decide
  have high : (if b₀ == 0xED then 0x9F else 0xBF : UInt8).toNat ≤ 191 := by split <;> decide
  obtain ⟨hb, _⟩ := h
  simp only [isTrail, UInt8.le_iff_toNat_le, Bool.and_eq_true, decide_eq_true_eq,
    Bool.and_eq_false_iff, decide_eq_false_iff_not] at *
  simp only [UInt8.reduceToNat] at *
  omega

/-- In a rune of four bytes all but the first one are continuation bytes. -/
theorem trails_of_four? {b₀ b₁ b₂ b₃ : UInt8} {c : Char} (h : four? b₀ b₁ b₂ b₃ = some c) :
    isTrail b₀ = false ∧ isTrail b₁ = true ∧ isTrail b₂ = true ∧ isTrail b₃ = true := by
  simp only [four?, Option.ite_none_right_eq_some] at h
  have low : (128 : Nat) ≤ (if b₀ == 0xF0 then 0x90 else 0x80 : UInt8).toNat := by split <;> decide
  have high : (if b₀ == 0xF4 then 0x8F else 0xBF : UInt8).toNat ≤ 191 := by split <;> decide
  obtain ⟨hb, _⟩ := h
  simp only [isTrail, UInt8.le_iff_toNat_le, Bool.and_eq_true, decide_eq_true_eq,
    Bool.and_eq_false_iff, decide_eq_false_iff_not] at *
  simp only [UInt8.reduceToNat] at *
  omega

/-- What a rune of several bytes looks like: a leading byte and continuation bytes, which spell
the same rune whatever follows. -/
theorem shape_of_multibyte? {b₀ : UInt8} {t rest : Text} {r : Rune}
    (h : multibyte? b₀ t = some (r, rest)) :
    ∃ trails, r.spelling = b₀ :: trails ∧ trails ≠ [] ∧ trails.length ≤ 3 ∧ isTrail b₀ = false ∧
      (∀ b ∈ trails, isTrail b = true) ∧ ∀ u, multibyte? b₀ (trails ++ u) = some (r, u) := by
  obtain ⟨b₁, c, h₂, -, rfl⟩ | ⟨b₁, b₂, c, h₂, h₃, -, rfl⟩ |
    ⟨b₁, b₂, b₃, c, h₂, h₃, h₄, -, rfl⟩ := multibyte?_eq_some_cases h
  · have := trails_of_two? h₂
    exact ⟨[b₁], rfl, by simp, by simp, this.1, by simp [this], fun u => by simp [multibyte?, h₂]⟩
  · have := trails_of_three? h₃
    exact ⟨[b₁, b₂], rfl, by simp, by simp, this.1, by simp [this],
      fun u => by simp [multibyte?, h₂, h₃]⟩
  · have := trails_of_four? h₄
    exact ⟨[b₁, b₂, b₃], rfl, by simp, by simp, this.1, by simp [this],
      fun u => by simp [multibyte?, h₂, h₃, h₄]⟩

end Rune

namespace Text

/-- A rune that was read is a single byte, or a leading byte with continuation bytes that would
be read in the same way before any other text. -/
theorem shape_of_uncons {t rest : Text} {r : Rune} (h : t.uncons = some (r, rest)) :
    (∃ b, r.spelling = [b]) ∨
      ∃ lead trails, r.spelling = lead :: trails ∧ trails ≠ [] ∧ trails.length ≤ 3 ∧
        Rune.isTrail lead = false ∧ (∀ b ∈ trails, Rune.isTrail b = true) ∧
        ∀ u, uncons (lead :: trails ++ u) = some (r, u) := by
  obtain ⟨b, -, -, rfl⟩ | ⟨b, -, -, -, rfl⟩ | ⟨b, tail, hb, hm, -⟩ := uncons_eq_some_cases h
  · exact .inl ⟨b, rfl⟩
  · exact .inl ⟨b, rfl⟩
  · obtain ⟨trails, hs, hne, hlen, hlead, hall, hu⟩ := Rune.shape_of_multibyte? hm
    exact .inr ⟨b, trails, hs, hne, hlen, hlead, hall, fun u => by simp [uncons, hb, hu u]⟩

/-- Every byte of a rune after the first one is a continuation byte. -/
theorem isTrail_of_mem_tail {t rest : Text} {r : Rune} (h : t.uncons = some (r, rest)) {b : UInt8}
    (hb : b ∈ r.spelling.tail) : Rune.isTrail b = true := by
  rcases shape_of_uncons h with ⟨x, hx⟩ | ⟨lead, trails, hs, _, _, _, hall, _⟩
  · simp [hx] at hb
  · rw [hs] at hb; exact hall b (by simpa using hb)

/-! ### The walk through a text -/

/-- One step of reading: from what is behind and ahead of a place to the place after the next
rune. At the end nothing moves. -/
def step (place : Text × Text) : Text × Text :=
  match place.2.uncons with
  | none => place
  | some (r, rest) => (r.spelling.reverse ++ place.1, rest)

/-- The place after `n` steps. -/
def walk : Nat → Text × Text → Text × Text
  | 0, place => place
  | n + 1, place => step (walk n place)

/-- The places that reading a text from its start passes through. -/
def Reached (behind ahead : Text) : Prop :=
  ∃ n, walk n ([], behind.reverse ++ ahead) = (behind, ahead)

/-- Walking on from where a walk has led. -/
theorem walk_add (m n : Nat) (place : Text × Text) :
    walk (m + n) place = walk n (walk m place) := by
  induction n with
  | zero => rfl
  | succ n ih => rw [Nat.add_succ, walk, walk, ih]

/-- A step moves bytes from ahead to behind and loses none. -/
theorem step_text (place : Text × Text) :
    (step place).1.reverse ++ (step place).2 = place.1.reverse ++ place.2 := by
  unfold step
  split
  · rfl
  · rename_i h
    have := (append_of_uncons h).1
    simp [← this]

/-- A walk loses no bytes. -/
theorem walk_text (n : Nat) (place : Text × Text) :
    (walk n place).1.reverse ++ (walk n place).2 = place.1.reverse ++ place.2 := by
  induction n with
  | zero => rfl
  | succ n ih => rw [walk, step_text, ih]

/-- A step never goes back. -/
theorem length_le_step (place : Text × Text) : place.1.length ≤ (step place).1.length := by
  unfold step
  split <;> simp

/-- A walk never goes back. -/
theorem length_le_walk (n : Nat) (place : Text × Text) :
    place.1.length ≤ (walk n place).1.length := by
  induction n with
  | zero => exact Nat.le_refl _
  | succ n ih => exact Nat.le_trans ih (length_le_step _)

/-- The start of a text is a boundary. -/
theorem reached_start (t : Text) : Reached [] t := ⟨0, rfl⟩

/-- The place after a rune that starts at a boundary is a boundary. -/
theorem reached_next {behind ahead rest : Text} {r : Rune} (h : Reached behind ahead)
    (hr : ahead.uncons = some (r, rest)) : Reached (r.spelling.reverse ++ behind) rest := by
  obtain ⟨n, hn⟩ := h
  refine ⟨n + 1, ?_⟩
  have := (append_of_uncons hr).1
  have hstart : (r.spelling.reverse ++ behind).reverse ++ rest = behind.reverse ++ ahead := by
    simp [← this]
  rw [hstart, walk, hn]
  simp [step, hr]

/-- Before a byte that does not continue a sequence there is always a boundary. -/
theorem reached_of_lead {lead : UInt8} (hlead : Rune.isTrail lead = false) (n : Nat) :
    ∀ (t trails behind ahead : Text), (∀ b ∈ trails, Rune.isTrail b = true) →
      walk n ([], t) = (trails.reverse ++ lead :: behind, ahead) →
      ∃ k, walk k ([], t) = (behind, lead :: trails ++ ahead) := by
  induction n with
  | zero => intro t trails behind ahead _ h; simp [walk] at h
  | succ n ih =>
    intro t trails behind ahead htrails h
    rw [walk, step] at h
    rcases hu : (walk n ([], t)).2.uncons with _ | ⟨r, rest⟩
    · rw [hu] at h; exact ih t trails behind ahead htrails h
    · rw [hu] at h
      simp only [Prod.mk.injEq] at h
      obtain ⟨hb, rfl⟩ := h
      have happ := (append_of_uncons hu).1
      have hpos := (append_of_uncons hu).2
      -- Compare the rune that was read last with the stretch from the leading byte on.
      rcases Nat.lt_or_ge trails.length r.spelling.length with hlt | hge
      · have hsplit : r.spelling.reverse = trails.reverse ++
            r.spelling.reverse.drop trails.length := by
          have h₁ : (r.spelling.reverse ++ (walk n ([], t)).1).take trails.length
              = r.spelling.reverse.take trails.length := by
            rw [List.take_append_of_le_length (by simp; omega)]
          have h₂ : (r.spelling.reverse ++ (walk n ([], t)).1).take trails.length
              = trails.reverse := by
            rw [hb]; simp
          rw [← h₂, h₁, List.take_append_drop]
        rw [hsplit, List.append_assoc] at hb
        have hb := List.append_cancel_left hb
        rcases hd : r.spelling.reverse.drop trails.length with _ | ⟨x, before⟩
        · have := congrArg List.length hd
          simp at this
          omega
        · rw [hd] at hb hsplit
          simp only [List.cons_append, List.cons.injEq] at hb
          obtain ⟨rfl, hb⟩ := hb
          have hs : r.spelling = before.reverse ++ x :: trails := by
            have := congrArg List.reverse hsplit
            simpa using this
          cases hbr : before.reverse with
          | nil =>
            have : before = [] := by simpa using hbr
            subst this
            refine ⟨n, Prod.ext (by simpa using hb) ?_⟩
            simp [← happ, hs]
          | cons y ys =>
            -- The leading byte would be a continuation byte of the rune.
            have := isTrail_of_mem_tail hu (b := x) (by rw [hs, hbr]; simp)
            rw [hlead] at this
            contradiction
      · have hsplit : trails.reverse = r.spelling.reverse ++
            trails.reverse.drop r.spelling.length := by
          have h₁ : (trails.reverse ++ lead :: behind).take r.spelling.length
              = trails.reverse.take r.spelling.length := by
            rw [List.take_append_of_le_length (by simp; omega)]
          have h₂ : (trails.reverse ++ lead :: behind).take r.spelling.length
              = r.spelling.reverse := by
            rw [← hb]; simp
          rw [← h₂, h₁, List.take_append_drop]
        rw [hsplit, List.append_assoc] at hb
        have hb := List.append_cancel_left hb
        obtain ⟨front, hfront⟩ : ∃ front, trails.reverse.drop r.spelling.length = front.reverse :=
          ⟨(trails.reverse.drop r.spelling.length).reverse, by simp⟩
        rw [hfront] at hb hsplit
        have ht : trails = front ++ r.spelling := by
          have := congrArg List.reverse hsplit
          simpa using this
        obtain ⟨k, hk⟩ := ih t front behind (walk n ([], t)).2
          (fun b hm => htrails b (by rw [ht]; simp [hm])) (Prod.ext hb rfl)
        exact ⟨k, by rw [hk, ← happ, ht]; simp⟩

/-- Two boundaries of one text lie on one walk: no boundary is inside a rune that starts at
another boundary. -/
theorem not_reached_inside (inside : Text) {behind ahead rest t : Text} {r : Rune} {k n : Nat}
    (hk : walk k ([], t) = (behind, ahead)) (hr : ahead.uncons = some (r, rest))
    (hn : (walk n ([], t)).1 = inside.reverse ++ behind) (hpos : inside ≠ [])
    (hlt : inside.length < r.spelling.length) : False := by
  have hlen : 0 < inside.length := List.length_pos_iff.2 hpos
  rcases Nat.lt_or_ge k n with hkn | hkn
  · have hw : walk n ([], t) = walk (n - (k + 1)) (walk (k + 1) ([], t)) := by
      rw [← walk_add]; congr 1; omega
    have := length_le_walk (n - (k + 1)) (walk (k + 1) ([], t))
    rw [← hw, hn, walk, hk] at this
    simp [step, hr] at this
    omega
  · have hw : walk k ([], t) = walk (k - n) (walk n ([], t)) := by
      rw [← walk_add]; congr 1; omega
    have := length_le_walk (k - n) (walk n ([], t))
    rw [← hw, hk, hn] at this
    simp only [List.length_append, List.length_reverse] at this
    omega

/-- Looking back over a stretch that starts at the nearest leading byte and reads as one rune finds
that rune's width. -/
theorem lastWidth_of_stretch (lead last : UInt8) (trails behind : Text) {r : Rune}
    (hlast : Rune.isTrail last = true) (hlead : Rune.isTrail lead = false)
    (htrails : ∀ b ∈ trails, Rune.isTrail b = true) (hlen : trails.length ≤ 2)
    (hr : uncons (lead :: trails ++ [last]) = some (r, [])) :
    lastWidth (last :: (trails.reverse ++ lead :: behind)) = trails.length + 2 := by
  have hge : ¬ last < 0x80 := by
    simp [Rune.isTrail, UInt8.le_iff_toNat_le, UInt8.lt_iff_toNat_lt] at hlast ⊢
    omega
  have hfind : ((trails.reverse ++ lead :: behind).take 3).findIdx?
      (fun b => !Rune.isTrail b) = some trails.length := by
    match trails, hlen with
    | [], _ => simp [List.findIdx?_cons, hlead]
    | [x], _ => simp [List.findIdx?_cons, hlead, htrails x]
    | [x, y], _ => simp [List.findIdx?_cons, hlead, htrails x, htrails y]
  have htake : (trails.reverse ++ lead :: behind).take (trails.length + 1)
      = trails.reverse ++ [lead] := by
    rw [show trails.length + 1 = (trails.reverse ++ [lead]).length by simp,
      show trails.reverse ++ lead :: behind = (trails.reverse ++ [lead]) ++ behind by simp]
    exact List.take_left
  simp only [lastWidth, hge, if_false, hfind, htake]
  simp at hr
  simp [hr]

/-- A boundary is not passed over by a rune that starts at the nearest leading byte before it. -/
theorem no_rune_over (lead : UInt8) (trails : Text) {b : UInt8} {behind rest : Text} {r : Rune}
    (hlead : Rune.isTrail lead = false) (htrails : ∀ x ∈ trails, Rune.isTrail x = true)
    (h : Reached (trails.reverse ++ lead :: behind) (b :: rest))
    (hr : uncons (lead :: trails ++ [b]) = some (r, [])) : False := by
  obtain ⟨n, hn⟩ := h
  obtain ⟨k, hk⟩ := reached_of_lead hlead n _ trails behind (b :: rest) htrails hn
  have happ := (append_of_uncons hr).1
  rw [List.append_nil] at happ
  rcases shape_of_uncons hr with ⟨x, hx⟩ | ⟨lead', trails', hs, -, -, -, -, hu⟩
  · rw [hx] at happ
    simp at happ
  · rw [hs] at happ
    have hread : uncons (lead :: trails ++ b :: rest) = some (r, rest) := by
      have := hu rest
      rw [happ] at this
      simpa using this
    refine not_reached_inside (lead :: trails) hk hread (by rw [hn]; simp) (by simp) ?_
    rw [hs, happ]
    simp

/-- **Looking back undoes reading.** From the place after a rune that was read at a boundary, the
last rune is the one that was read. -/
theorem lastWidth_of_reached {behind ahead rest : Text} {r : Rune} (h : Reached behind ahead)
    (hr : ahead.uncons = some (r, rest)) :
    lastWidth (r.spelling.reverse ++ behind) = r.spelling.length := by
  rcases shape_of_uncons hr with ⟨b, hb⟩ | ⟨lead, trails, hs, hne, hlen, hlead, hall, hu⟩
  · -- A single byte: no earlier stretch may swallow it.
    rw [hb]
    simp only [List.reverse_cons, List.reverse_nil, List.nil_append, List.singleton_append,
      List.length_cons, List.length_nil, Nat.zero_add]
    have hahead : ahead = b :: rest := by rw [← (append_of_uncons hr).1, hb]; rfl
    subst hahead
    rw [lastWidth]
    split
    · rfl
    · split
      · rfl
      · rename_i k hk
        dsimp only
        split
        · rename_i r' hr'
          rw [List.findIdx?_eq_some_iff_getElem] at hk
          obtain ⟨hlt, hlead, htrails⟩ := hk
          have hlt' : k < behind.length := by simp at hlt; omega
          have hsplit : behind =
              (behind.take k).reverse.reverse ++ behind[k] :: behind.drop (k + 1) := by simp
          have htake : behind.take (k + 1) = behind.take k ++ [behind[k]] := by simp
          exact (no_rune_over behind[k] (behind.take k).reverse (by simpa using hlead)
            (by
              intro x hx
              obtain ⟨j, hj, rfl⟩ := List.getElem_of_mem (List.mem_reverse.1 hx)
              have := htrails j (by simp at hj; omega)
              simpa using this)
            (hsplit ▸ h) (by
              rw [htake] at hr'
              simpa only [List.reverse_cons, List.reverse_append, List.reverse_nil,
                List.nil_append, List.singleton_append, List.cons_append] using hr')).elim
        · rfl
  · obtain ⟨front, last, rfl⟩ : ∃ front last, trails = front ++ [last] :=
      ⟨trails.dropLast, trails.getLast hne, (List.dropLast_concat_getLast hne).symm⟩
    have hw := lastWidth_of_stretch lead last front behind (hall last (by simp)) hlead
      (fun b hm => hall b (by simp [hm])) (by simp at hlen; omega) (by simpa using hu [])
    rw [hs]
    simpa using hw

/-- Stepping back over the last rune leads from boundary to boundary. -/
theorem reached_back {behind ahead : Text} (h : Reached behind ahead) :
    Reached (behind.drop (lastWidth behind))
      ((behind.take (lastWidth behind)).reverse ++ ahead) := by
  obtain ⟨n, hn⟩ := h
  induction n generalizing behind ahead with
  | zero =>
    simp only [walk, Prod.mk.injEq] at hn
    obtain ⟨rfl, _⟩ := hn
    exact reached_start _
  | succ n ih =>
    rw [walk, step] at hn
    rcases hu : (walk n ([], behind.reverse ++ ahead)).2.uncons with _ | ⟨r, rest⟩
    · rw [hu] at hn
      exact ih hn
    · rw [hu] at hn
      simp only [Prod.mk.injEq] at hn
      obtain ⟨hbehind, rfl⟩ := hn
      have htext := walk_text n ([], behind.reverse ++ rest)
      simp only [List.reverse_nil, List.nil_append] at htext
      have hreached : Reached (walk n ([], behind.reverse ++ rest)).1
          (walk n ([], behind.reverse ++ rest)).2 := ⟨n, by rw [htext]⟩
      have hwidth := lastWidth_of_reached hreached hu
      rw [hbehind] at hwidth
      have hdrop : behind.drop r.spelling.length = (walk n ([], behind.reverse ++ rest)).1 := by
        conv => lhs; rw [← hbehind]
        simp
      have htake : behind.take r.spelling.length = r.spelling.reverse := by
        rw [← hbehind]; simp
      rw [hwidth, hdrop, htake, List.reverse_reverse, (append_of_uncons hu).1]
      exact hreached

end Text

end Reckon
