/-!
# Texts

A text is the list of its characters. Places in a text are counted in the bytes of its UTF-8
encoding.
-/
namespace PluginAudit

abbrev Text := List Char

/-- The text that a string literal spells. -/
abbrev lit (s : String) : Text := s.toList

namespace Text

/-- The number of bytes of a text in UTF-8. -/
def byteSize (t : Text) : Nat := t.foldr (fun c n => c.utf8Size + n) 0

@[simp] theorem byteSize_nil : byteSize [] = 0 := rfl

@[simp] theorem byteSize_cons (c : Char) (t : Text) : byteSize (c :: t) = c.utf8Size + byteSize t := rfl

@[simp] theorem byteSize_append (s t : Text) : byteSize (s ++ t) = byteSize s + byteSize t := by
  induction s with
  | nil => simp
  | cons c s ih => simp [ih, Nat.add_assoc]

/-- The two parts of a text around a byte offset; `none` past the end or inside a character. -/
def splitAt? : Nat → Text → Option (Text × Text)
  | 0, t => some ([], t)
  | _ + 1, [] => none
  | n + 1, c :: t =>
    if c.utf8Size ≤ n + 1 then
      (splitAt? (n + 1 - c.utf8Size) t).map fun (before, after) => (c :: before, after)
    else none

theorem splitAt?_eq_some_iff {n : Nat} {t before after : Text} :
    splitAt? n t = some (before, after) ↔ t = before ++ after ∧ before.byteSize = n := by
  fun_induction splitAt? n t generalizing before with
  | case1 t =>
    constructor
    · rintro ⟨⟩
      simp
    · rintro ⟨rfl, empty⟩
      cases before with
      | nil => rfl
      | cons c before =>
        have := c.utf8Size_pos
        simp only [byteSize_cons] at empty
        omega
  | case2 n =>
    constructor
    · rintro ⟨⟩
    · rintro ⟨eq, size⟩
      obtain ⟨rfl, -⟩ := List.append_eq_nil_iff.mp eq.symm
      simp at size
  | case3 n c t fits ih =>
    cases before with
    | nil => simp
    | cons d before =>
      simp only [List.cons_append, List.cons.injEq, byteSize_cons]
      constructor
      · intro split
        obtain ⟨⟨before', after'⟩, rest, eq⟩ := Option.map_eq_some_iff.mp split
        obtain ⟨heads, rfl⟩ := Prod.mk.inj eq
        obtain ⟨rfl, rfl⟩ := List.cons.inj heads
        obtain ⟨whole, size⟩ := ih.mp rest
        exact ⟨⟨rfl, whole⟩, by rw [size]; omega⟩
      · rintro ⟨⟨rfl, whole⟩, size⟩
        rw [ih.mpr ⟨whole, by omega⟩]
        rfl
  | case4 n c t tooLong =>
    constructor
    · rintro ⟨⟩
    · rintro ⟨eq, size⟩
      cases before with
      | nil => simp at size
      | cons d before =>
        obtain ⟨rfl, -⟩ := List.cons.inj eq
        simp only [byteSize_cons] at size
        omega

/-- What follows `word` in a text that begins with it. -/
def after? : Text → Text → Option Text
  | [], t => some t
  | _ :: _, [] => none
  | w :: word, c :: t => if w = c then after? word t else none

theorem after?_eq_some_iff {word t rest : Text} : after? word t = some rest ↔ t = word ++ rest := by
  fun_induction after? word t with
  | case1 => simp [eq_comm]
  | case2 => simp
  | case3 word c t ih => simp_all
  | case4 w word c t ne => simpa using fun h => absurd h.symm ne

def ofNat (n : Nat) : Text := Nat.toDigits 10 n

theorem not_mem_ofNat {c : Char} (other : c.isDigit = false) (n : Nat) : c ∉ ofNat n := by
  intro mem
  rw [Nat.isDigit_of_mem_toDigits (by decide) (by decide) mem] at other
  cases other

/-- The decimal digits of an integer, after a minus sign if it is negative. -/
def ofInt : Int → Text
  | .ofNat n => ofNat n
  | .negSucc n => '-' :: ofNat (n + 1)

/-- Texts in a row, each but the last followed by a comma and a space. -/
def enumerate (ts : List Text) : Text := (lit ", ").intercalate ts

/-- The parts of a text between the occurrences of a character; always at least one. -/
def splitOn (mark : Char) : Text → List Text
  | [] => [[]]
  | c :: t =>
    if c = mark then [] :: splitOn mark t
    else
      match splitOn mark t with
      | [] => [[c]]
      | part :: parts => (c :: part) :: parts

end Text
end PluginAudit
