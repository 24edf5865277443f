import Mathlib

/-!
# Named numbers in one text

A list of named numbers is written as one text: each name and its number with a mark between them, the
pairs with another.  Read back, it is the same list if no name has a mark in it
(`splitPairs_joinPairs`, `ofDigits_decimal`).
-/

namespace DelimitedText

abbrev Text := List Char

/-- The digits of a number, after a minus sign if it is negative. -/
def decimal : Int → Text
  | .ofNat n => Nat.toDigits 10 n
  | .negSucc n => '-' :: Nat.toDigits 10 (n + 1)

/-- Whether a text is a number in ASCII digits. -/
def isDigits (s : Text) : Bool := !s.isEmpty && s.all Char.isDigit

def ofDigits (s : Text) : Int := Nat.ofDigitChars 10 s 0

/-- A text up to the first mark, and what is after it. -/
def cut (mark : Char) : Text → Option (Text × Text)
  | [] => none
  | c :: s => if c = mark then some ([], s) else (cut mark s).map fun p => (c :: p.1, p.2)

def joinPairs (item mark : Char) (xs : List (Text × Int)) : Text :=
  [item].intercalate (xs.map fun x => x.1 ++ mark :: decimal x.2)

/-- Every part with its mark; none if one has no mark. -/
def splitPairs (item mark : Char) (s : Text) : Option (List (Text × Text)) := (s.splitOn item).mapM (cut mark)

section
variable {n : Int} {mark item : Char} {s t : Text} {xs : List (Text × Int)}

theorem decimal_of_nonneg (h : 0 ≤ n) : decimal n = Nat.toDigits 10 n.toNat := by
  obtain ⟨k, rfl⟩ := Int.eq_ofNat_of_zero_le h
  rfl

theorem isDigits_decimal (h : 0 ≤ n) : isDigits (decimal n) = true := by
  rw [decimal_of_nonneg h, isDigits, Bool.and_eq_true]
  constructor
  · simp [Nat.toDigits_ne_nil]
  · rw [List.all_eq_true]
    exact fun c hc => Nat.isDigit_of_mem_toDigits (by decide) (by decide) hc

theorem ofDigits_decimal (h : 0 ≤ n) : ofDigits (decimal n) = n := by
  rw [decimal_of_nonneg h, ofDigits, Nat.ofDigitChars_ten_toDigits]
  omega

/-- A mark that is no digit is not in a number. -/
theorem not_mem_decimal (hmark : mark.isDigit = false) (h : 0 ≤ n) : mark ∉ decimal n := by
  intro hmem
  have hall := isDigits_decimal h
  rw [isDigits, Bool.and_eq_true, List.all_eq_true] at hall
  rw [hall.2 mark hmem] at hmark
  cases hmark

theorem cut_append (h : mark ∉ s) : cut mark (s ++ mark :: t) = some (s, t) := by
  induction s with
  | nil => simp [cut]
  | cons c s ih =>
    rw [List.mem_cons, not_or] at h
    rw [List.cons_append, cut, if_neg (Ne.symm h.1), ih h.2]
    rfl

theorem mapM_cut (h : ∀ x ∈ xs, mark ∉ x.1) : (xs.map fun x => x.1 ++ mark :: decimal x.2).mapM (cut mark) =
    some (xs.map fun x => (x.1, decimal x.2)) := by
  induction xs with
  | nil => rfl
  | cons x xs ih =>
    rw [List.map_cons, List.mapM_cons, cut_append (h x List.mem_cons_self),
      ih fun y hy => h y (List.mem_cons_of_mem _ hy)]
    rfl

/-- Named numbers are read back as they were written. -/
theorem splitPairs_joinPairs (hne : xs ≠ []) (hitem : item.isDigit = false) (hmarks : item ≠ mark)
    (h : ∀ x ∈ xs, (item ∉ x.1 ∧ mark ∉ x.1) ∧ 0 ≤ x.2) :
    splitPairs item mark (joinPairs item mark xs) = some (xs.map fun x => (x.1, decimal x.2)) := by
  rw [splitPairs, joinPairs, List.splitOn_intercalate]
  · exact mapM_cut fun x hx => (h x hx).1.2
  · intro part hpart
    obtain ⟨x, hx, rfl⟩ := List.mem_map.1 hpart
    obtain ⟨⟨hname, -⟩, hnonneg⟩ := h x hx
    rw [List.mem_append, List.mem_cons, not_or, not_or]
    exact ⟨hname, hmarks, not_mem_decimal hitem hnonneg⟩
  · simpa using hne

end

end DelimitedText
