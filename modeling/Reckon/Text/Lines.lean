import Reckon.Text.Basic

/-!
# Lines

Inputs and files of arguments are read line by line. A newline ends a line, and the last line needs
none. A line of more than `Text.maxLine` bytes is too long to be read.

`Text.lines` gives all lines of an input at once, and `Text.nextLine` the first one with what is
left after it.
-/

namespace Reckon

namespace Text

/-- The longest line that is read, without its newline. -/
def maxLine : Nat := 65535

/-- The lines of an input; a last line needs no newline. -/
def lines (input : Text) : List Text :=
  let pieces := splitOn '\n'.toUInt8 input
  if pieces.getLast? == some [] then pieces.dropLast else pieces

/-- Whether a line is short enough to be read. -/
def fitsLine (t : Text) : Bool := t.length ≤ maxLine

/-- What reading a line of an input comes to. -/
inductive LineRead where
  /-- There is nothing left to read. -/
  | atEnd
  | tooLong
  /-- A line, and what is left after it. -/
  | line (t rest : Text)

/-- Reads the next line, without its newline and one carriage return in front of that. -/
def nextLine (input : Text) : LineRead :=
  if input.isEmpty then .atEnd
  else
    let t := input.takeWhile fun b => b != '\n'.toUInt8
    if fitsLine t then .line (dropLastByte '\r'.toUInt8 t) (input.drop (t.length + 1)) else .tooLong

/-- A line that is read leaves less to be read. -/
theorem length_of_nextLine {input t rest : Text} (h : nextLine input = .line t rest) :
    rest.length < input.length := by
  unfold nextLine at h
  split at h
  · cases h
  · rename_i hne
    dsimp only at h
    split at h
    · cases h
      have hpos := List.length_pos_iff.mpr (mt List.isEmpty_iff.mpr hne)
      rw [List.length_drop]
      omega
    · cases h

end Text

end Reckon
