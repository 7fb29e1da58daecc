/-!
# Blank characters and trimming

The twenty-five characters of the Unicode property White_Space, and the removal of blanks from the
ends of a text. Main statements: dropping the blanks at the end is dropping them at the front of the
reversed text, and no blank is left where blanks were dropped.
-/

namespace SceneWiring.Text

/-- A character of the Unicode property White_Space. -/
def isBlank (c : Char) : Bool :=
  let code := c.toNat
  (9 ≤ code && code ≤ 13) || code == 0x20 || code == 0x85 || code == 0xA0 || code == 0x1680 ||
    (0x2000 ≤ code && code ≤ 0x200A) || code == 0x2028 || code == 0x2029 || code == 0x202F ||
    code == 0x205F || code == 0x3000

/-- A text without the blanks in front of it. -/
def dropBlanks (text : List Char) : List Char := text.dropWhile isBlank

/-- A text without the blanks behind it, by recursion from the front: a blank stays when something
is left after it. -/
def dropBlanksRight : List Char → List Char
  | [] => []
  | c :: rest =>
    match dropBlanksRight rest with
    | [] => if isBlank c then [] else [c]
    | kept@(_ :: _) => c :: kept

/-- A text without the blanks at either end. -/
def trimChars (text : List Char) : List Char := dropBlanksRight (dropBlanks text)

/-- Dropping at the right end is dropping at the front of the reversed text. -/
theorem dropBlanksRight_eq_reverse (text : List Char) :
    dropBlanksRight text = (text.reverse.dropWhile isBlank).reverse := by
  induction text with
  | nil => rfl
  | cons c rest ih =>
    rw [dropBlanksRight, ih, List.reverse_cons, List.dropWhile_append]
    cases h : rest.reverse.dropWhile isBlank with
    | nil => by_cases hc : isBlank c <;> simp [hc]
    | cons d kept => cases hk : (d :: kept).reverse <;> simp_all

/-- No blank is left at the front. -/
theorem head?_dropBlanks (text : List Char) (c : Char) (h : (dropBlanks text).head? = some c) :
    isBlank c = false := by
  induction text with
  | nil => simp [dropBlanks] at h
  | cons d rest ih =>
    by_cases hd : isBlank d = true
    · simp only [dropBlanks, List.dropWhile_cons, hd, if_true] at h
      exact ih h
    · have hc : d = c := by simpa [dropBlanks, List.dropWhile_cons, hd] using h
      exact hc ▸ (by simpa using hd)

/-- No blank is left at the end. -/
theorem getLast?_dropBlanksRight (text : List Char) :
    ∀ c ∈ (dropBlanksRight text).getLast?, isBlank c = false := by
  intro c hc
  rw [dropBlanksRight_eq_reverse, List.getLast?_reverse] at hc
  exact head?_dropBlanks _ c hc

end SceneWiring.Text
