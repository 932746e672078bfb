import Reckon.Decimal.Reader

/-!
# Forms

A form is a list of named values, written `name=value` with `&` between the pairs. It occurs as the
query of an address and as the body of a request. In names and values `+` stands for a blank and
`%` with two hexadecimal digits for any byte. A pair that has a broken escape or contains `;` is
left out, and the form is then not clean.
-/

namespace Reckon

/-- Named values. -/
structure Form where
  pairs : List (Text × Text)
  /-- Whether nothing was left out. -/
  clean : Bool

namespace Form

/-- The text without its escapes, after what was already read (last byte first). -/
def unescape? (plusIsBlank : Bool) (done : Text) : Text → Option Text
  | [] => some done.reverse
  | b :: rest =>
    if b == '%'.toUInt8 then
      match rest with
      | high :: low :: rest =>
        match FloatText.digit? true high, FloatText.digit? true low with
        | some high, some low => unescape? plusIsBlank ((16 * high + low).toUInt8 :: done) rest
        | _, _ => none
      | _ => none
    else
      let b := if plusIsBlank && b == '+'.toUInt8 then ' '.toUInt8 else b
      unescape? plusIsBlank (b :: done) rest

/-- A name with its value, which is empty if there is no `=`. -/
def pair? (t : Text) : Option (Text × Text) :=
  if t.contains ';'.toUInt8 then none
  else do
    let (name, value) := (Text.cut '='.toUInt8 t).getD (t, [])
    return (← unescape? true [] name, ← unescape? true [] value)

/-- Reads a form. -/
def read (t : Text) : Form :=
  let pairs := ((Text.splitOn '&'.toUInt8 t).filter fun part => !part.isEmpty).map pair?
  ⟨pairs.filterMap id, pairs.all Option.isSome⟩

/-- The first value of a name. -/
def first? (f : Form) (name : Text) : Option Text :=
  (f.pairs.find? fun pair => pair.1 == name).map Prod.snd

/-- One form after another. -/
def append (f g : Form) : Form := ⟨f.pairs ++ g.pairs, f.clean && g.clean⟩

instance : Append Form := ⟨append⟩

end Form

end Reckon
