/-!
# Lines of a text

A line ends at a line feed; a carriage return right before the line feed belongs to the line end.
The text after the last line feed is a line only if it is not empty.
-/

namespace Chalk.Text

/-- The characters before the first line feed, and those after it if there is one. -/
def cutLine : List Char → List Char × Option (List Char)
  | [] => ([], none)
  | c :: rest =>
    if c == '\n' then ([], some rest)
    else
      let (line, more) := cutLine rest
      (c :: line, more)

/-- A line without the carriage return that precedes its line feed. -/
def dropReturn (line : List Char) : List Char :=
  if line.getLast? == some '\r' then line.dropLast else line

theorem cutLine_length {cs line rest : List Char} (h : cutLine cs = (line, some rest)) :
    rest.length < cs.length := by
  induction cs generalizing line with
  | nil => simp [cutLine] at h
  | cons c cs ih =>
    unfold cutLine at h
    split at h
    · simp_all
    · simp only [Prod.mk.injEq] at h
      have hcut : cutLine cs = ((cutLine cs).1, some rest) := by rw [← h.2]
      have := ih hcut
      simp only [List.length_cons]
      omega

/-- The lines of a text, without their ends. -/
def lines (cs : List Char) : List (List Char) :=
  match _h : cutLine cs with
  | (line, some rest) => dropReturn line :: lines rest
  | ([], none) => []
  | (line, none) => [line]
termination_by cs.length
decreasing_by exact cutLine_length _h

end Chalk.Text
