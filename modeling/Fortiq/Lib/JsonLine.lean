/-
JSON texts, one to a line. A tree is printed without white space, and every character below the blank is escaped, so
that no line end stands within a text: what is written with a line end after it is read back whole by a reader of
lines, if its limit allows.
-/
import Mathlib.Data.List.DropRight
import Mathlib.Tactic

inductive Json where
  | null
  | bool (b : Bool)
  | num (n : Nat)
  | str (s : String)
  | arr (items : List Json)
  | obj (fields : List (String × Json))

namespace Json

/-! ## Printing -/

/-- A character within a string: the quote, the backslash and what is below the blank are escaped. -/
def escape (c : Char) : List Char :=
  if c.toNat = 0x22 then "\\\"".toList
  else if c.toNat = 0x5c then "\\\\".toList
  else if c.toNat = 0x08 then "\\b".toList
  else if c.toNat = 0x0c then "\\f".toList
  else if c.toNat = 0x0a then "\\n".toList
  else if c.toNat = 0x0d then "\\r".toList
  else if c.toNat = 0x09 then "\\t".toList
  else if c.toNat < 0x20 then "\\u00".toList ++ [Nat.digitChar (c.toNat / 16), Nat.digitChar (c.toNat % 16)]
  else [c]

def quoted (s : String) : List Char := '\x22' :: s.toList.flatMap escape ++ ['\x22']

mutual

def print : Json → List Char
  | null => "null".toList
  | bool b => (if b then "true" else "false").toList
  | num n => (toString n).toList
  | str s => quoted s
  | arr items => '[' :: printItems items ++ [']']
  | obj fields => '\x7b' :: printFields fields ++ ['\x7d']

def printItems : List Json → List Char
  | [] => []
  | [item] => print item
  | item :: items => print item ++ ',' :: printItems items

def printFields : List (String × Json) → List Char
  | [] => []
  | [(key, value)] => quoted key ++ ':' :: print value
  | (key, value) :: fields => quoted key ++ ':' :: print value ++ ',' :: printFields fields

end

/-! ## No line ends within a text -/

/-- All characters are from the blank on. -/
def Printable (l : List Char) : Prop := ∀ c ∈ l, 0x20 ≤ c.toNat

-- over the list, not over the finite type of characters
instance (l : List Char) : Decidable (Printable l) :=
  decidable_of_iff (l.all fun c => decide (0x20 ≤ c.toNat)) (by simp [Printable])

theorem printable_append {l m : List Char} : Printable (l ++ m) ↔ Printable l ∧ Printable m := by
  simp [Printable, or_imp, forall_and]

theorem printable_cons {c : Char} {l : List Char} : Printable (c :: l) ↔ 0x20 ≤ c.toNat ∧ Printable l := by
  simp [Printable]

theorem printable_digits (n : Nat) : Printable (toString n).toList := by
  intro c hc
  have hd : c.isDigit = true := by
    refine Nat.isDigit_of_mem_toDigits (by decide) le_rfl (n := n) ?_
    simpa [Nat.repr] using hc
  exact le_trans (by decide) (Char.isDigit_iff_toNat.1 hd).1

theorem printable_escape (c : Char) : Printable (escape c) := by
  have hdigit : ∀ n < 16, 0x20 ≤ (Nat.digitChar n).toNat := by decide
  unfold escape
  split_ifs with _ _ _ _ _ _ _ hlow
  iterate 7 decide
  · simp only [printable_append, printable_cons]
    exact ⟨by decide, hdigit _ (by omega), hdigit _ (by omega), by decide⟩
  · exact printable_cons.2 ⟨not_lt.1 hlow, by decide⟩

theorem printable_quoted (s : String) : Printable (quoted s) := by
  unfold quoted
  simp only [printable_append, printable_cons]
  refine ⟨⟨by decide, fun c hc => ?_⟩, by decide, by decide⟩
  obtain ⟨a, -, hc⟩ := List.mem_flatMap.1 hc
  exact printable_escape a c hc

mutual

theorem printable_print : ∀ j : Json, Printable (print j)
  | null => by decide
  | bool b => by cases b <;> decide
  | num n => printable_digits n
  | str s => printable_quoted s
  | arr items => by
    simp only [print, printable_append, printable_cons]
    exact ⟨⟨by decide, printable_printItems items⟩, by decide, by decide⟩
  | obj fields => by
    simp only [print, printable_append, printable_cons]
    exact ⟨⟨by decide, printable_printFields fields⟩, by decide, by decide⟩

theorem printable_printItems : ∀ items : List Json, Printable (printItems items)
  | [] => by decide
  | [item] => by simpa [printItems] using printable_print item
  | item :: next :: items => by
    simp only [printItems, printable_append, printable_cons]
    exact ⟨printable_print item, by decide, printable_printItems (next :: items)⟩

theorem printable_printFields : ∀ fields : List (String × Json), Printable (printFields fields)
  | [] => by decide
  | [(key, value)] => by
    simp only [printFields, printable_append, printable_cons]
    exact ⟨printable_quoted key, by decide, printable_print value⟩
  | (key, value) :: next :: fields => by
    simp only [printFields, printable_append, printable_cons]
    exact ⟨⟨printable_quoted key, by decide, printable_print value⟩, by decide, printable_printFields (next :: fields)⟩

end

/-! ## Bytes -/

/-- The length of a text in UTF-8. -/
def byteLength (l : List Char) : Nat := (l.flatMap String.utf8EncodeChar).length

theorem byteLength_append (l m : List Char) : byteLength (l ++ m) = byteLength l + byteLength m := by
  simp [byteLength]

theorem byteLength_cons (c : Char) (l : List Char) : byteLength (c :: l) = c.utf8Size + byteLength l := by
  simp [byteLength, String.length_utf8EncodeChar]

theorem printFields_cons (key : String) (value : Json) {fields : List (String × Json)} (h : fields ≠ []) :
    printFields ((key, value) :: fields) = quoted key ++ ':' :: print value ++ ',' :: printFields fields := by
  cases fields with
  | nil => exact absurd rfl h
  | cons field fields =>
    rw [printFields]
    exact h

/-- Another value in its place makes an object longer by as much as it is longer itself. -/
theorem byteLength_replace (before after : List (String × Json)) (key : String) (v w : Json) :
    byteLength (print (obj (before ++ (key, v) :: after))) + byteLength (print w) =
      byteLength (print (obj (before ++ (key, w) :: after))) + byteLength (print v) := by
  have hfields : byteLength (printFields (before ++ (key, v) :: after)) + byteLength (print w) =
      byteLength (printFields (before ++ (key, w) :: after)) + byteLength (print v) := by
    induction before with
    | nil =>
      cases after with
      | nil =>
        simp only [List.nil_append, printFields, byteLength_append, byteLength_cons]
        omega
      | cons field after =>
        simp only [List.nil_append, printFields, byteLength_append, byteLength_cons]
        omega
    | cons field before ih =>
      obtain ⟨key', value⟩ := field
      rw [List.cons_append, List.cons_append, printFields_cons _ _ (by simp), printFields_cons _ _ (by simp)]
      simp only [byteLength_append, byteLength_cons]
      omega
  simp only [print, List.cons_append, byteLength_append, byteLength_cons]
  omega

/-- Only the line end itself has its byte: the bytes of longer characters are all from 0x80 on. -/
theorem newline_mem_utf8EncodeChar {c : Char} (h : (10 : UInt8) ∈ String.utf8EncodeChar c) : c.toNat = 10 := by
  have hbyte : ∀ n, n < 256 → n ≠ 10 → (10 : UInt8) ≠ UInt8.ofNat n := fun n hn hne heq => by
    have := congrArg UInt8.toNat heq
    simp at this
    omega
  by_contra hne
  have hval : c.val.toNat ≠ 10 := hne
  simp only [String.utf8EncodeChar] at h
  split_ifs at h with h1 h2 h3 <;> simp only [List.mem_cons, List.not_mem_nil, or_false] at h
  · exact hbyte _ (by omega) hval h
  · rcases h with h | h <;> exact hbyte _ (by omega) (by omega) h
  · rcases h with h | h | h <;> exact hbyte _ (by omega) (by omega) h
  · rcases h with h | h | h | h <;> exact hbyte _ (by omega) (by omega) h

/-- No line end stands within the bytes of a text. -/
theorem newline_not_mem_print (j : Json) : (10 : UInt8) ∉ (print j).flatMap String.utf8EncodeChar := by
  intro h
  obtain ⟨c, hc, h⟩ := List.mem_flatMap.1 h
  have := printable_print j c hc
  have := newline_mem_utf8EncodeChar h
  omega

end Json

/-! ## Reading a line -/

/-- What is up to the first end and the end itself, or all where there is none. -/
def firstLine {β : Type} [DecidableEq β] (e : β) : List β → List β
  | [] => []
  | b :: l => if b = e then [b] else b :: firstLine e l

section FirstLine

variable {β : Type} [DecidableEq β] {e : β}

theorem firstLine_of_not_mem : ∀ {l : List β}, e ∉ l → firstLine e l = l
  | [], _ => rfl
  | b :: l, h => by
    rw [List.mem_cons, not_or] at h
    rw [firstLine, if_neg (Ne.symm h.1), firstLine_of_not_mem h.2]

theorem firstLine_append (rest : List β) : ∀ {l : List β}, e ∉ l → firstLine e (l ++ e :: rest) = l ++ [e]
  | [], _ => by simp [firstLine]
  | b :: l, h => by
    rw [List.mem_cons, not_or] at h
    rw [List.cons_append, firstLine, if_neg (Ne.symm h.1), firstLine_append rest h.2, List.cons_append]

/-- A line that fits the limit is read whole. -/
theorem firstLine_take {l : List β} (h : e ∉ l) (rest : List β) (limit : Nat) (hfit : l.length < limit) :
    firstLine e ((l ++ e :: rest).take limit) = l ++ [e] := by
  obtain ⟨n, rfl⟩ := Nat.exists_eq_add_of_lt hfit
  rw [List.take_append, List.take_of_length_le (by omega)]
  have hn : l.length + n + 1 - l.length = n + 1 := by omega
  rw [hn, List.take_succ_cons, firstLine_append _ h]

/-- A line that does not fit is cut at the limit. -/
theorem firstLine_take_of_le {l : List β} (h : e ∉ l) (rest : List β) (limit : Nat) (hlong : limit ≤ l.length) :
    firstLine e ((l ++ e :: rest).take limit) = l.take limit := by
  rw [List.take_append_of_le_length hlong]
  exact firstLine_of_not_mem fun hmem => h (List.mem_of_mem_take hmem)

end FirstLine
