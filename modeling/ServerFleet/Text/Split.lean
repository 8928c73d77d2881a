/-!
# Splitting

Cutting a text at every copy of a separator.  The pieces joined by the separator
give the text back.
-/

namespace ServerFleet
namespace Text

/-- The pieces between the copies of a separator; a text without any is one piece. -/
def splitOn (separator : Char) : List Char → List (List Char)
  | [] => [[]]
  | c :: rest =>
      if c = separator then [] :: splitOn separator rest
      else
        match splitOn separator rest with
        | [] => [[c]]
        | piece :: more => (c :: piece) :: more

def splitLast? (separator : Char) (s : List Char) : Option (List Char × List Char) :=
  let back := s.reverse.takeWhile (· != separator)
  match s.reverse.drop back.length with
  | [] => none
  | _ :: front => some (front.reverse, back.reverse)

theorem splitOn_ne_nil (separator : Char) (s : List Char) :
    splitOn separator s ≠ [] := by
  cases s with
  | nil =>
      simp [splitOn]
  | cons c rest =>
      by_cases h : c = separator
      · simp [splitOn, h]
      · cases hr : splitOn separator rest <;> simp [splitOn, h, hr]

theorem splitOn_join (separator : Char) (s : List Char) :
    List.intercalate [separator] (splitOn separator s) = s := by
  induction s with
  | nil =>
      rfl
  | cons c rest ih =>
      by_cases h : c = separator
      · cases hr : splitOn separator rest with
        | nil =>
            exact absurd hr (splitOn_ne_nil separator rest)
        | cons piece more =>
            rw [hr] at ih
            simp [splitOn, h, hr, List.intercalate] at ih ⊢
            exact ih
      · cases hr : splitOn separator rest with
        | nil =>
            exact absurd hr (splitOn_ne_nil separator rest)
        | cons piece more =>
            rw [hr] at ih
            cases more with
            | nil =>
                simp [splitOn, h, hr, List.intercalate] at ih ⊢
                exact ih
            | cons next others =>
                simp [splitOn, h, hr, List.intercalate, List.intersperse] at ih ⊢
                exact ih

end Text
end ServerFleet
