/-
Which bytes are in the shortest form. The heads of an item and of all items inside it follow one another, with the bytes
of strings between them, so a walk over the heads tells whether each is as short as it can be, without taking the items
apart; and bytes that are read as an item are what the item is written to exactly if the walk finds nothing longer.
-/
import Fortiq.Lib.CborData

namespace Cbor

/-! ## The walk -/

/-- The head is no longer than its number needs; a float has the width of its bits. -/
def Head.shortest (h : Head) : Bool := (h.major = 7 && 24 < h.info) || h.info = shortestInfo h.val

/-- The bytes behind a head that hold no other head. -/
def Head.payload (h : Head) : Nat := if h.major = 2 ∨ h.major = 3 then h.val else 0

theorem readHead_length {l rest : List UInt8} {h : Head} (hr : readHead l = some (h, rest)) : rest.length < l.length := by
  cases l with
  | nil => cases hr
  | cons b l =>
    rw [readHead] at hr
    split_ifs at hr
    · cases hr
      exact Nat.lt_succ_self _
    · cases hr
      simp only [List.length_drop, List.length_cons]
      exact Nat.lt_succ_of_le (Nat.sub_le _ _)

/-- Every head on a walk over the bytes is in its shortest form. -/
def shortHeads (l : List UInt8) : Bool :=
  match _hr : readHead l with
  | none => l.isEmpty
  | some (h, rest) => h.shortest && shortHeads (rest.drop h.payload)
termination_by l.length
decreasing_by
  have := readHead_length _hr
  rw [List.length_drop]
  omega

theorem shortHeads_nil : shortHeads [] = true := by
  rw [shortHeads]
  rfl

theorem shortHeads_head {l rest : List UInt8} {h : Head} (hr : readHead l = some (h, rest)) :
    shortHeads l = (h.shortest && shortHeads (rest.drop h.payload)) := by
  rw [shortHeads]
  split
  · rename_i hnone
    rw [hr] at hnone
    cases hnone
  · rename_i hsome
    rw [hr] at hsome
    cases hsome
    rfl

/-! ## Heads -/

theorem beValue_lt (l : List UInt8) : beValue l < 256 ^ l.length := by
  induction l using List.reverseRecOn with
  | nil => exact Nat.one_pos
  | append_singleton l b ih =>
    have hb := b.toNat_lt
    rw [List.length_append, List.length_singleton, Nat.pow_succ]
    simp only [beValue, List.foldl_append, List.foldl_cons, List.foldl_nil] at ih ⊢
    omega

theorem bigEndian_beValue (l : List UInt8) : bigEndian l.length (beValue l) = l := by
  induction l using List.reverseRecOn with
  | nil => rfl
  | append_singleton l b ih =>
    have hb := b.toNat_lt
    have happend : beValue (l ++ [b]) = beValue l * 256 + b.toNat := by
      simp only [beValue, List.foldl_append, List.foldl_cons, List.foldl_nil]
    have hdiv : (beValue l * 256 + b.toNat) / 256 = beValue l := by omega
    have hlow : UInt8.ofNat (beValue l * 256 + b.toNat) = b := by
      rw [← UInt8.toNat_inj, UInt8.toNat_ofNat']
      omega
    rw [List.length_append, List.length_singleton, bigEndian, happend, hdiv, hlow, ih]

/-- What a head that is read has taken: its first byte, and the bytes of its number if that is not in the first one. -/
theorem readHead_cases {l rest : List UInt8} {h : Head} (hr : readHead l = some (h, rest)) :
    h.major < 8 ∧ ((h.info < 24 ∧ h.val = h.info ∧ l = UInt8.ofNat (h.major * 32 + h.info) :: rest) ∨
      ∃ j < 4, h.info = 24 + j ∧ h.val < 256 ^ 2 ^ j ∧
        l = UInt8.ofNat (h.major * 32 + h.info) :: (bigEndian (2 ^ j) h.val ++ rest)) := by
  cases l with
  | nil => cases hr
  | cons b l =>
    have hb := b.toNat_lt
    have hfirst : UInt8.ofNat (b.toNat / 32 * 32 + b.toNat % 32) = b := by
      rw [Nat.div_add_mod', UInt8.ofNat_toNat]
    rw [readHead] at hr
    split_ifs at hr with hshort hlong
    · cases hr
      exact ⟨by simp only; omega, .inl ⟨hshort, rfl, by rw [hfirst]⟩⟩
    · cases hr
      refine ⟨by simp only; omega, .inr ⟨b.toNat % 32 - 24, by omega, by simp only; omega, ?_, ?_⟩⟩
      · have hlt := beValue_lt (l.take (2 ^ (b.toNat % 32 - 24)))
        rwa [List.length_take, Nat.min_eq_left hlong.2] at hlt
      · have hback := bigEndian_beValue (l.take (2 ^ (b.toNat % 32 - 24)))
        rw [List.length_take, Nat.min_eq_left hlong.2] at hback
        rw [hfirst, hback, List.take_append_drop]

theorem pow_width_le {j : Nat} (hj : j < 4) : 256 ^ 2 ^ j ≤ 2 ^ 64 := by
  interval_cases j <;> decide

theorem readHead_val_lt {l rest : List UInt8} {h : Head} (hr : readHead l = some (h, rest)) : h.val < 2 ^ 64 := by
  obtain ⟨-, ⟨hinfo, hval, -⟩ | ⟨j, hj, -, hval, -⟩⟩ := readHead_cases hr
  · rw [hval]
    omega
  · exact lt_of_lt_of_le hval (pow_width_le hj)

/-- A head that is read is the shortest one exactly if it has the additional information of the shortest. -/
theorem readHead_shortest_iff {l rest x : List UInt8} {h : Head} (hr : readHead l = some (h, rest)) :
    l = head h.major h.val ++ x ↔ h.info = shortestInfo h.val ∧ rest = x := by
  obtain ⟨hmajor, hcases⟩ := readHead_cases hr
  constructor
  · intro hl
    rw [hl, readHead_head hmajor (readHead_val_lt hr)] at hr
    obtain ⟨hh, hx⟩ := Prod.mk.inj (Option.some.inj hr)
    exact ⟨by conv_lhs => rw [← hh], hx.symm⟩
  · rintro ⟨hinfo, rfl⟩
    rcases hcases with ⟨hlt, hval, hl⟩ | ⟨j, hj, hlong, hval, hl⟩
    · rw [hl, head, if_pos (by omega), hval]
      rfl
    · -- the number does not fit the first byte, or the information would be below 24
      have hbig : ¬ h.val < 24 := by
        intro hsmall
        rw [hinfo, shortestInfo, if_pos hsmall] at hlong
        omega
      rw [hl, head, if_neg hbig, ← hinfo, hlong, Nat.add_sub_cancel_left, List.cons_append]

/-! ## Items -/

/-- Bytes, an encoding and what is left of them: nothing but what is left can follow the encoding, and the walk over the
bytes goes on behind it exactly if they begin with it. -/
structure ShortAs (l encoded r : List UInt8) : Prop where
  rest : ∀ x, l = encoded ++ x → r = x
  walk : shortHeads l = true ↔ l = encoded ++ r ∧ shortHeads r = true

theorem ShortAs.nil (l : List UInt8) : ShortAs l [] l := by
  constructor
  · intro x hl
    exact hl
  · rw [List.nil_append, and_iff_right rfl]

/-- One encoding after the other. -/
theorem ShortAs.append {l l' r a b : List UInt8} (h : ShortAs l a l') (h' : ShortAs l' b r) : ShortAs l (a ++ b) r := by
  constructor
  · intro x hl
    rw [List.append_assoc] at hl
    exact h'.rest x (h.rest _ hl)
  · rw [h.walk, h'.walk, List.append_assoc]
    constructor
    · rintro ⟨hl, hl', hr⟩
      exact ⟨hl' ▸ hl, hr⟩
    · rintro ⟨hl, hr⟩
      have hl' := h.rest _ hl
      exact ⟨hl'.symm ▸ hl, hl', hr⟩

/-- A reader and a writer agree on what is shortest: the walk over what is read goes on behind it exactly if it is what
is written. -/
structure Shortest {α : Type} (p : Parser α) (encode : α → List UInt8) : Prop where
  rest : ∀ {l r x : List UInt8} {a : α}, p l = some (a, r) → l = encode a ++ x → r = x
  walk : ∀ {l r : List UInt8} {a : α}, p l = some (a, r) → (shortHeads l = true ↔ l = encode a ++ r ∧ shortHeads r = true)

section Items

variable {α : Type} {p : Parser α} {encode : α → List UInt8}

theorem shortest_iff : Shortest p encode ↔ ∀ l r a, p l = some (a, r) → ShortAs l (encode a) r := by
  constructor
  · intro hp l r a h
    exact ⟨fun _ => hp.rest h, hp.walk h⟩
  · intro hp
    exact ⟨fun h => (hp _ _ _ h).rest _, fun h => (hp _ _ _ h).walk⟩

theorem parseTimes_succ {k : Nat} {l r : List UInt8} {as : List α} (h : parseTimes p (k + 1) l = some (as, r)) :
    ∃ a as' l', as = a :: as' ∧ p l = some (a, l') ∧ parseTimes p k l' = some (as', r) := by
  obtain ⟨⟨a, l'⟩, ha, hrest⟩ := Option.bind_eq_some_iff.1 h
  obtain ⟨⟨as', r'⟩, has, heq⟩ := Option.map_eq_some_iff.1 hrest
  cases heq
  exact ⟨a, as', l', rfl, ha, has⟩

theorem parseTimes_length : ∀ {k : Nat} {l r : List UInt8} {as : List α}, parseTimes p k l = some (as, r) → as.length = k
  | 0, _, _, _, h => by cases h; rfl
  | k + 1, l, r, as, h => by
    obtain ⟨a, as', l', rfl, -, has⟩ := parseTimes_succ h
    rw [List.length_cons, parseTimes_length has]

/-- Readers one after the other. -/
theorem Shortest.times (hp : Shortest p encode) {encodes : List α → List UInt8} (hnil : encodes [] = [])
    (hcons : ∀ a as, encodes (a :: as) = encode a ++ encodes as) (k : Nat) : Shortest (parseTimes p k) encodes := by
  rw [shortest_iff] at hp ⊢
  induction k with
  | zero =>
    intro l r as h
    cases h
    rw [hnil]
    exact .nil l
  | succ k ih =>
    intro l r as h
    obtain ⟨a, as', l', rfl, ha, has⟩ := parseTimes_succ h
    rw [hcons]
    exact (hp _ _ _ ha).append (ih _ _ _ has)

theorem Shortest.entry {p : Parser Data} (hp : Shortest p Data.encode) :
    Shortest (parseEntry p) fun entry => entry.1.encode ++ entry.2.encode := by
  rw [shortest_iff] at hp ⊢
  intro l r entry h
  obtain ⟨⟨key, l'⟩, hkey, hrest⟩ := Option.bind_eq_some_iff.1 h
  obtain ⟨⟨value, r'⟩, hvalue, heq⟩ := Option.map_eq_some_iff.1 hrest
  cases heq
  exact (hp _ _ _ hkey).append (hp _ _ _ hvalue)

end Items

section Content

variable {l rest r : List UInt8} {h : Head} {d : Data}

/-- What a head and what follows it come to. -/
theorem shortAs_of_content {content : List UInt8} (hr : readHead l = some (h, rest))
    (hmajor : h.shortest = decide (h.info = shortestInfo h.val))
    (hd : d.encode = head h.major h.val ++ content)
    (hrest : ∀ x, rest = content ++ x → r = x)
    (hwalk : shortHeads (rest.drop h.payload) = true ↔ rest = content ++ r ∧ shortHeads r = true) :
    ShortAs l d.encode r := by
  constructor
  · intro x hl
    rw [hd, List.append_assoc] at hl
    exact hrest x ((readHead_shortest_iff hr).1 hl).2
  · rw [shortHeads_head hr, Bool.and_eq_true, hwalk, hmajor, decide_eq_true_eq, hd, List.append_assoc,
      readHead_shortest_iff hr, and_assoc]

/-- Items behind a head that counts them, or one that is tagged. -/
theorem shortAs_of_items {content : List UInt8} (hr : readHead l = some (h, rest))
    (hmajor : h.shortest = decide (h.info = shortestInfo h.val)) (hpayload : h.payload = 0)
    (hitems : ShortAs rest content r) (hd : d.encode = head h.major h.val ++ content) : ShortAs l d.encode r := by
  refine shortAs_of_content hr hmajor hd hitems.rest ?_
  rw [hpayload, List.drop_zero]
  exact hitems.walk

/-- An item that is no more than its head. -/
theorem shortAs_of_head (hr : readHead l = some (h, r)) (hmajor : h.shortest = decide (h.info = shortestInfo h.val))
    (hpayload : h.payload = 0) (hd : d.encode = head h.major h.val) : ShortAs l d.encode r := by
  have hempty : d.encode = head h.major h.val ++ [] := by rw [hd, List.append_nil]
  exact shortAs_of_items hr hmajor hpayload (.nil r) hempty

/-- A string, with its bytes behind the head. -/
theorem shortAs_of_string {s : List UInt8} (hr : readHead l = some (h, rest))
    (hmajor : h.shortest = decide (h.info = shortestInfo h.val)) (hpayload : h.payload = h.val)
    (hs : parseString h.val rest = some (s, r)) (hd : d.encode = head h.major s.length ++ s) : ShortAs l d.encode r := by
  rw [parseString, Option.ite_none_right_eq_some] at hs
  obtain ⟨hle, heq⟩ := hs
  cases heq
  have hlen : (rest.take h.val).length = h.val := by rw [List.length_take, Nat.min_eq_left hle]
  rw [hlen] at hd
  refine shortAs_of_content hr hmajor hd (fun x hx => ?_) ?_
  · exact List.append_cancel_left ((List.take_append_drop h.val rest).trans hx)
  · rw [hpayload, List.take_append_drop, and_iff_right rfl]

/-- A float, in as many bytes as it has. -/
theorem shortAs_of_float {info val j : Nat} (hr : readHead l = some (⟨7, info, val⟩, r)) (hinfo : info = 24 + j)
    (hj : 0 < j) (hd : d.encode = UInt8.ofNat (7 * 32 + info) :: bigEndian (2 ^ j) val) : ShortAs l d.encode r := by
  have hl : l = d.encode ++ r := by
    obtain ⟨-, ⟨hlt, -⟩ | ⟨j', -, hinfo', -, hl⟩⟩ := readHead_cases hr
    · simp only at hlt
      omega
    · simp only at hinfo' hl
      obtain rfl : j' = j := by omega
      rw [hl, hd, List.cons_append]
  constructor
  · intro x hx
    exact List.append_cancel_left (hl.symm.trans hx)
  · have hshort : Head.shortest ⟨7, info, val⟩ = true := by simp [Head.shortest]; omega
    rw [shortHeads_head hr, hshort, Bool.true_and, and_iff_right hl]
    rfl

/-- A number behind the first byte fits the width that the head gives it. -/
theorem readHead_width {j : Nat} (hr : readHead l = some (h, r)) (hinfo : h.info = 24 + j) :
    j < 4 ∧ h.val < 256 ^ 2 ^ j := by
  obtain ⟨-, ⟨hlt, -⟩ | ⟨j', hj', hinfo', hlt, -⟩⟩ := readHead_cases hr
  · omega
  · obtain rfl : j' = j := by omega
    exact ⟨hj', hlt⟩

/-- A simple value is written in one byte or two. -/
theorem readHead_simple_lt (hr : readHead l = some (h, r)) (hinfo : h.info ≤ 24) : h.val < 2 ^ 8 := by
  obtain ⟨-, ⟨hlt, heq, -⟩ | ⟨j, -, hinfo', hval, -⟩⟩ := readHead_cases hr
  · omega
  · obtain rfl : j = 0 := by omega
    exact hval

/-- Simple values and floats. -/
theorem shortAs_of_extra {p : Parser Data} {info val : Nat} (hr : readHead l = some (⟨7, info, val⟩, rest))
    (hc : parseContent p ⟨7, info, val⟩ rest = some (d, r)) : ShortAs l d.encode r := by
  simp only [parseContent] at hc
  split_ifs at hc with hsimple hhalf hsingle <;> cases hc
  · have hsmall : val < 2 ^ 8 := readHead_simple_lt hr hsimple
    refine shortAs_of_head hr ?_ rfl ?_
    · simp [Head.shortest, Nat.not_lt.2 hsimple]
    · rw [Data.encode, UInt8.toNat_ofNat', Nat.mod_eq_of_lt hsmall]
  · have hlt : val < 2 ^ 16 := (readHead_width (j := 1) hr hhalf).2
    refine shortAs_of_float hr (j := 1) hhalf (by decide) ?_
    rw [Data.encode, UInt16.toNat_ofNat', Nat.mod_eq_of_lt hlt, hhalf]
    rfl
  · have hlt : val < 2 ^ 32 := (readHead_width (j := 2) hr hsingle).2
    refine shortAs_of_float hr (j := 2) hsingle (by decide) ?_
    rw [Data.encode, UInt32.toNat_ofNat', Nat.mod_eq_of_lt hlt, hsingle]
    rfl
  · have hlt : val < 2 ^ 64 := readHead_val_lt hr
    have hdouble : info = 27 := by
      have hwidth := (readHead_width (j := info - 24) hr (show info = 24 + (info - 24) by omega)).1
      omega
    refine shortAs_of_float hr (j := 3) hdouble (by decide) ?_
    rw [Data.encode, UInt64.toNat_ofNat', Nat.mod_eq_of_lt hlt, hdouble]
    rfl

end Content

/-- By the levels of nesting, and for each level by the major type of its head. -/
theorem parseLevels_shortest : ∀ n, Shortest (parseLevels n) Data.encode
  | 0 => ⟨nofun, nofun⟩
  | n + 1 => by
    have ih := parseLevels_shortest n
    rw [shortest_iff]
    intro l r d h
    obtain ⟨⟨⟨major, info, val⟩, rest⟩, hr, hc⟩ := Option.bind_eq_some_iff.1 h
    have hval : val < 2 ^ 64 := readHead_val_lt hr
    have hword : (UInt64.ofNat val).toNat = val := by rw [UInt64.toNat_ofNat', Nat.mod_eq_of_lt hval]
    have hmajor : major < 8 := (readHead_cases hr).1
    simp only at hc
    interval_cases major
    · cases hc
      exact shortAs_of_head hr rfl rfl (by rw [Data.encode, hword])
    · cases hc
      exact shortAs_of_head hr rfl rfl (by rw [Data.encode, hword])
    · obtain ⟨⟨s, r'⟩, hs, heq⟩ := Option.map_eq_some_iff.1 hc
      cases heq
      exact shortAs_of_string hr rfl rfl hs (by rw [Data.encode])
    · obtain ⟨⟨s, r'⟩, hs, heq⟩ := Option.map_eq_some_iff.1 hc
      cases heq
      exact shortAs_of_string hr rfl rfl hs (by rw [Data.encode])
    · obtain ⟨⟨items, r'⟩, hs, heq⟩ := Option.map_eq_some_iff.1 hc
      cases heq
      have hitems : Shortest (parseTimes (parseLevels n) val) encodeItems := ih.times rfl (fun _ _ => rfl) val
      exact shortAs_of_items hr rfl rfl (shortest_iff.1 hitems _ _ _ hs) (by rw [Data.encode, parseTimes_length hs])
    · obtain ⟨⟨entries, r'⟩, hs, heq⟩ := Option.map_eq_some_iff.1 hc
      cases heq
      have hentries : Shortest (parseTimes (parseEntry (parseLevels n)) val) encodeEntries :=
        ih.entry.times rfl (fun _ _ => by rw [encodeEntries, List.append_assoc]) val
      exact shortAs_of_items hr rfl rfl (shortest_iff.1 hentries _ _ _ hs) (by rw [Data.encode, parseTimes_length hs])
    · obtain ⟨⟨item, r'⟩, hs, heq⟩ := Option.map_eq_some_iff.1 hc
      cases heq
      exact shortAs_of_items hr rfl rfl (shortest_iff.1 ih _ _ _ hs) (by rw [Data.encode, hword])
    · exact shortAs_of_extra hr hc

/-- Bytes that are read as one item are what it is written to exactly if all their heads are the shortest. -/
theorem shortHeads_iff {l : List UInt8} {d : Data} (h : parse l = some (d, [])) : shortHeads l = true ↔ l = d.encode := by
  rw [(parseLevels_shortest l.length).walk h, List.append_nil, shortHeads_nil, and_iff_left rfl]

end Cbor
