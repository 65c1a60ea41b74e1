/-
CBOR data items, the shortest way to write one, and the reader that takes one item off the front of some bytes. What is
written is read back whatever follows it, and bytes added at the end do not change what is read; the reader also takes
heads that are longer than they need be.
-/
import Fortiq.Lib.Cbor

namespace Cbor

/-! ## Heads -/

/-- The `k` bytes of a number in base 256, the most significant first. -/
def bigEndian : Nat → Nat → List UInt8
  | 0, _ => []
  | k + 1, n => bigEndian k (n / 256) ++ [UInt8.ofNat n]

@[simp] theorem length_bigEndian (k n : Nat) : (bigEndian k n).length = k := by
  induction k generalizing n with
  | zero => rfl
  | succ k ih => rw [bigEndian, List.length_append, ih, List.length_singleton]

theorem beValue_bigEndian {k n : Nat} (h : n < 256 ^ k) : beValue (bigEndian k n) = n := by
  induction k generalizing n with
  | zero => exact (Nat.lt_one_iff.1 h).symm
  | succ k ih =>
    have hdiv : n / 256 < 256 ^ k := Nat.div_lt_of_lt_mul (by rwa [Nat.pow_succ, Nat.mul_comm] at h)
    have happend : beValue (bigEndian k (n / 256) ++ [UInt8.ofNat n]) =
        beValue (bigEndian k (n / 256)) * 256 + (UInt8.ofNat n).toNat := by
      simp only [beValue, List.foldl_append, List.foldl_cons, List.foldl_nil]
    rw [bigEndian, happend, ih hdiv, UInt8.toNat_ofNat']
    omega

/-- What a head says: the major type, the additional information and the number. -/
structure Head where
  major : Nat
  info : Nat
  val : Nat

def readHead : List UInt8 → Option (Head × List UInt8)
  | [] => none
  | b :: l =>
    let info := b.toNat % 32
    if info < 24 then some (⟨b.toNat / 32, info, info⟩, l)
    else if info < 28 ∧ 2 ^ (info - 24) ≤ l.length then
      some (⟨b.toNat / 32, info, beValue (l.take (2 ^ (info - 24)))⟩, l.drop (2 ^ (info - 24)))
    else none

/-- The additional information of the shortest head with this number. -/
def shortestInfo (val : Nat) : Nat :=
  if val < 24 then val else if val < 2 ^ 8 then 24 else if val < 2 ^ 16 then 25 else if val < 2 ^ 32 then 26 else 27

/-- The shortest head. -/
def head (major val : Nat) : List UInt8 :=
  if val < 24 then [UInt8.ofNat (major * 32 + val)]
  else UInt8.ofNat (major * 32 + shortestInfo val) :: bigEndian (2 ^ (shortestInfo val - 24)) val

theorem toNat_first {major info : Nat} (hmajor : major < 8) (hinfo : info < 32) :
    (UInt8.ofNat (major * 32 + info)).toNat / 32 = major ∧ (UInt8.ofNat (major * 32 + info)).toNat % 32 = info := by
  rw [UInt8.toNat_ofNat']
  omega

theorem readHead_long {major j val : Nat} (hmajor : major < 8) (hj : j < 4) (hval : val < 256 ^ 2 ^ j)
    (l : List UInt8) :
    readHead (UInt8.ofNat (major * 32 + (24 + j)) :: (bigEndian (2 ^ j) val ++ l)) = some (⟨major, 24 + j, val⟩, l) := by
  obtain ⟨hdiv, hmod⟩ := toNat_first hmajor (show 24 + j < 32 by omega)
  have hlen := length_bigEndian (2 ^ j) val
  rw [readHead, hdiv, hmod, if_neg (by omega), Nat.add_sub_cancel_left,
    if_pos ⟨by omega, by rw [List.length_append, hlen]; omega⟩, List.take_left' hlen, List.drop_left' hlen,
    beValue_bigEndian hval]

theorem shortestInfo_long {val : Nat} (hlong : ¬val < 24) (hval : val < 2 ^ 64) :
    ∃ j < 4, shortestInfo val = 24 + j ∧ val < 256 ^ 2 ^ j := by
  unfold shortestInfo
  rw [if_neg hlong]
  split_ifs with h8 h16 h32
  · exact ⟨0, by decide, rfl, h8⟩
  · exact ⟨1, by decide, rfl, h16⟩
  · exact ⟨2, by decide, rfl, h32⟩
  · exact ⟨3, by decide, rfl, hval⟩

theorem readHead_head {major val : Nat} (hmajor : major < 8) (hval : val < 2 ^ 64) (l : List UInt8) :
    readHead (head major val ++ l) = some (⟨major, shortestInfo val, val⟩, l) := by
  by_cases hshort : val < 24
  · obtain ⟨hdiv, hmod⟩ := toNat_first hmajor (show val < 32 by omega)
    rw [head, if_pos hshort, shortestInfo, if_pos hshort, List.cons_append, List.nil_append, readHead, hdiv, hmod,
      if_pos hshort]
  · obtain ⟨j, hj, hinfo, hfits⟩ := shortestInfo_long hshort hval
    rw [head, if_neg hshort, hinfo, Nat.add_sub_cancel_left, List.cons_append]
    exact readHead_long hmajor hj hfits l

theorem head_ne_nil (major val : Nat) : head major val ≠ [] := by
  unfold head
  split <;> exact List.cons_ne_nil _ _

/-! ## Data items -/

inductive Data where
  | unsigned (n : UInt64)
  | negative (n : UInt64)
  | bytes (l : List UInt8)
  | text (l : List UInt8)
  | array (items : List Data)
  | map (entries : List (Data × Data))
  | tag (n : UInt64) (item : Data)
  | simple (n : UInt8)
  | half (bits : UInt16)
  | single (bits : UInt32)
  | double (bits : UInt64)

mutual

/-- An item in its shortest form. -/
def Data.encode : Data → List UInt8
  | .unsigned n => head 0 n.toNat
  | .negative n => head 1 n.toNat
  | .bytes l => head 2 l.length ++ l
  | .text l => head 3 l.length ++ l
  | .array items => head 4 items.length ++ encodeItems items
  | .map entries => head 5 entries.length ++ encodeEntries entries
  | .tag n item => head 6 n.toNat ++ item.encode
  | .simple n => head 7 n.toNat
  | .half bits => 249 :: bigEndian 2 bits.toNat
  | .single bits => 250 :: bigEndian 4 bits.toNat
  | .double bits => 251 :: bigEndian 8 bits.toNat

def encodeItems : List Data → List UInt8
  | [] => []
  | item :: items => item.encode ++ encodeItems items

def encodeEntries : List (Data × Data) → List UInt8
  | [] => []
  | (key, value) :: entries => key.encode ++ (value.encode ++ encodeEntries entries)

end

mutual

/-- The lengths of the item fit their heads. -/
def Data.Sized : Data → Prop
  | .bytes l | .text l => l.length < 2 ^ 64
  | .array items => items.length < 2 ^ 64 ∧ SizedItems items
  | .map entries => entries.length < 2 ^ 64 ∧ SizedEntries entries
  | .tag _ item => item.Sized
  | _ => True

def SizedItems : List Data → Prop
  | [] => True
  | item :: items => item.Sized ∧ SizedItems items

def SizedEntries : List (Data × Data) → Prop
  | [] => True
  | (key, value) :: entries => key.Sized ∧ value.Sized ∧ SizedEntries entries

end

mutual

/-- The levels of an item, the outermost one counted. -/
def Data.height : Data → Nat
  | .array items => heightItems items + 1
  | .map entries => heightEntries entries + 1
  | .tag _ item => item.height + 1
  | _ => 1

def heightItems : List Data → Nat
  | [] => 0
  | item :: items => max item.height (heightItems items)

def heightEntries : List (Data × Data) → Nat
  | [] => 0
  | (key, value) :: entries => max key.height (max value.height (heightEntries entries))

end

theorem Data.height_pos (d : Data) : 1 ≤ d.height := by
  cases d <;> simp [Data.height]

/-! ## What is written is an item -/

section Item

variable {major val n : Nat} {body : List UInt8}

theorem item_long {j : Nat} (hmajor : major < 8) (hj : j < 4) (hval : val < 256 ^ 2 ^ j)
    (hbody : Content (Item n) major val body) :
    Item (n + 1) (UInt8.ofNat (major * 32 + (24 + j)) :: (bigEndian (2 ^ j) val ++ body)) := by
  obtain ⟨hdiv, hmod⟩ := toNat_first hmajor (show 24 + j < 32 by omega)
  have hextra := Extra.long hj hmod (length_bigEndian (2 ^ j) val)
  rw [beValue_bigEndian hval] at hextra
  exact .mk hextra (hdiv.symm ▸ hbody)

theorem item_head (hmajor : major < 8) (hval : val < 2 ^ 64) (hbody : Content (Item n) major val body) :
    Item (n + 1) (head major val ++ body) := by
  by_cases hshort : val < 24
  · obtain ⟨hdiv, hmod⟩ := toNat_first hmajor (show val < 32 by omega)
    have hextra : Extra ((UInt8.ofNat (major * 32 + val)).toNat % 32) [] val := hmod.symm ▸ .short hshort
    rw [head, if_pos hshort]
    exact .mk hextra (hdiv.symm ▸ hbody)
  · obtain ⟨j, hj, hinfo, hfits⟩ := shortestInfo_long hshort hval
    rw [head, if_neg hshort, hinfo, Nat.add_sub_cancel_left]
    exact item_long hmajor hj hfits hbody

theorem item_only_head (hmajor : major < 8) (hval : val < 2 ^ 64) (h : Content (Item n) major val []) :
    Item (n + 1) (head major val) := by
  simpa only [List.append_nil] using item_head hmajor hval h

theorem item_float {j : Nat} (hj : j < 4) (hval : val < 256 ^ 2 ^ j) :
    Item (n + 1) (UInt8.ofNat (7 * 32 + (24 + j)) :: bigEndian (2 ^ j) val) := by
  simpa only [List.append_nil] using item_long (by decide) hj hval (Content.simple (P := Item n))

mutual

theorem encode_item : ∀ (d : Data), d.Sized → ∀ n, d.height ≤ n → Item n d.encode
  | d, _, 0, hn => absurd hn (by have := d.height_pos; omega)
  | .unsigned k, _, n + 1, _ => item_only_head (by decide) k.toNat_lt .unsigned
  | .negative k, _, n + 1, _ => item_only_head (by decide) k.toNat_lt .negative
  | .bytes l, hd, n + 1, _ => item_head (by decide) hd .bytes
  | .text l, hd, n + 1, _ => item_head (by decide) hd .text
  | .array items, hd, n + 1, hn =>
    item_head (by decide) hd.1 (.array (encodeItems_sequence items hd.2 n (Nat.le_of_succ_le_succ hn)))
  | .map entries, hd, n + 1, hn =>
    item_head (by decide) hd.1 (.map (encodeEntries_sequence entries hd.2 n (Nat.le_of_succ_le_succ hn)))
  | .tag k item, hd, n + 1, hn =>
    item_head (by decide) k.toNat_lt (.tag (encode_item item hd n (Nat.le_of_succ_le_succ hn)))
  | .simple k, _, n + 1, _ => item_only_head (by decide) (lt_trans k.toNat_lt (by decide)) .simple
  | .half bits, _, n + 1, _ => item_float (j := 1) (by decide) bits.toNat_lt
  | .single bits, _, n + 1, _ => item_float (j := 2) (by decide) bits.toNat_lt
  | .double bits, _, n + 1, _ => item_float (j := 3) (by decide) bits.toNat_lt

theorem encodeItems_sequence : ∀ (items : List Data), SizedItems items → ∀ n, heightItems items ≤ n →
    Sequence (Item n) items.length (encodeItems items)
  | [], _, _, _ => .nil
  | item :: items, hd, n, hn =>
    .cons (encode_item item hd.1 n (le_trans (le_max_left _ _) hn))
      (encodeItems_sequence items hd.2 n (le_trans (le_max_right _ _) hn))

theorem encodeEntries_sequence : ∀ (entries : List (Data × Data)), SizedEntries entries → ∀ n,
    heightEntries entries ≤ n → Sequence (Item n) (2 * entries.length) (encodeEntries entries)
  | [], _, _, _ => .nil
  | (key, value) :: entries, hd, n, hn =>
    have hn' := max_le_iff.1 hn
    have hn'' := max_le_iff.1 hn'.2
    .cons (encode_item key hd.1 n hn'.1)
      (.cons (encode_item value hd.2.1 n hn''.1) (encodeEntries_sequence entries hd.2.2 n hn''.2))

end

end Item

/-! ## Reading -/

/-- What reads something off the front of some bytes and returns what follows it. -/
abbrev Parser (α : Type) := List UInt8 → Option (α × List UInt8)

namespace Parser

variable {α β : Type} {p : Parser α} {l r : List UInt8} {a : α}

def pure (a : α) : Parser α := fun l => some (a, l)

def map (f : α → β) (p : Parser α) : Parser β := fun l => (p l).map fun x => (f x.1, x.2)

def bind (p : Parser α) (f : α → Parser β) : Parser β := fun l => (p l).bind fun x => f x.1 x.2

theorem map_of_eq (h : p l = some (a, r)) (f : α → β) : p.map f l = some (f a, r) := by
  rw [map, h, Option.map_some]

theorem bind_of_eq (h : p l = some (a, r)) (f : α → Parser β) : p.bind f l = f a r := by
  rw [bind, h, Option.bind_some]

end Parser

def parseTimes {α : Type} (p : Parser α) : Nat → Parser (List α)
  | 0 => .pure []
  | k + 1 => p.bind fun a => (parseTimes p k).map (a :: ·)

def parseEntry (p : Parser Data) : Parser (Data × Data) := p.bind fun key => p.map (key, ·)

def parseString (n : Nat) : Parser (List UInt8) := fun l =>
  if n ≤ l.length then some (l.take n, l.drop n) else none

/-- What follows a head; `p` reads the items inside. -/
def parseContent (p : Parser Data) (h : Head) : Parser Data :=
  match h.major with
  | 0 => .pure (.unsigned (.ofNat h.val))
  | 1 => .pure (.negative (.ofNat h.val))
  | 2 => (parseString h.val).map Data.bytes
  | 3 => (parseString h.val).map Data.text
  | 4 => (parseTimes p h.val).map Data.array
  | 5 => (parseTimes (parseEntry p) h.val).map Data.map
  | 6 => p.map (Data.tag (.ofNat h.val))
  | _ =>
    if h.info ≤ 24 then .pure (.simple (.ofNat h.val))
    else if h.info = 25 then .pure (.half (.ofNat h.val))
    else if h.info = 26 then .pure (.single (.ofNat h.val))
    else .pure (.double (.ofNat h.val))

/-- The reader of items that are nested less than `n` deep. -/
def parseLevels : Nat → Parser Data
  | 0 => fun _ => none
  | n + 1 => Parser.bind readHead (parseContent (parseLevels n))

/-- One item off the front: no item is nested deeper than it has bytes. -/
def parse : Parser Data := fun l => parseLevels l.length l

/-! ## What is written is read back -/

section RoundTrip

variable {major val n : Nat} {d : Data} {l : List UInt8}

theorem parseString_append {a : List UInt8} : parseString a.length (a ++ l) = some (a, l) := by
  rw [parseString, if_pos (by rw [List.length_append]; omega), List.take_left, List.drop_left]

/-- A head leaves one level less for what follows it. -/
theorem parseLevels_head {content : List UInt8} (hmajor : major < 8) (hval : val < 2 ^ 64)
    (hn : (head major val ++ content).length ≤ n)
    (h : ∀ m, content.length ≤ m →
      parseContent (parseLevels m) ⟨major, shortestInfo val, val⟩ (content ++ l) = some (d, l)) :
    parseLevels n (head major val ++ content ++ l) = some (d, l) := by
  have hpos := List.length_pos_of_ne_nil (head_ne_nil major val)
  rw [List.length_append] at hn
  obtain ⟨m, rfl⟩ : ∃ m, n = m + 1 := ⟨n - 1, by omega⟩
  rw [List.append_assoc]
  exact (Parser.bind_of_eq (readHead_head hmajor hval _) _).trans (h m (by omega))

/-- An item that is no more than its head. -/
theorem parseLevels_only_head (hmajor : major < 8) (hval : val < 2 ^ 64) (hn : (head major val).length ≤ n)
    (h : ∀ m, parseContent (parseLevels m) ⟨major, shortestInfo val, val⟩ l = some (d, l)) :
    parseLevels n (head major val ++ l) = some (d, l) := by
  rw [← List.append_nil (head major val)] at hn ⊢
  exact parseLevels_head hmajor hval hn fun m _ => h m

theorem parseLevels_float {j : Nat} (hj : j < 4) (hval : val < 256 ^ 2 ^ j) (hn : 1 ≤ n)
    (h : ∀ m, parseContent (parseLevels m) ⟨7, 24 + j, val⟩ l = some (d, l)) :
    parseLevels n (UInt8.ofNat (7 * 32 + (24 + j)) :: bigEndian (2 ^ j) val ++ l) = some (d, l) := by
  obtain ⟨m, rfl⟩ : ∃ m, n = m + 1 := ⟨n - 1, by omega⟩
  exact (Parser.bind_of_eq (readHead_long (by decide) hj hval l) _).trans (h m)

theorem shortestInfo_le {val : Nat} (h : val < 2 ^ 8) : shortestInfo val ≤ 24 := by
  unfold shortestInfo
  split_ifs <;> omega

-- one theorem for each kind of list inside an item; the levels are counted by the bytes
mutual

theorem parseLevels_encode : ∀ (d : Data), d.Sized → ∀ (n : Nat) (l : List UInt8), d.encode.length ≤ n →
    parseLevels n (d.encode ++ l) = some (d, l)
  | .unsigned k, _, n, l, hn => parseLevels_only_head (by decide) k.toNat_lt hn fun m => by
    simp [parseContent, Parser.pure]
  | .negative k, _, n, l, hn => parseLevels_only_head (by decide) k.toNat_lt hn fun m => by
    simp [parseContent, Parser.pure]
  | .bytes a, hd, n, l, hn => parseLevels_head (by decide) hd hn fun m _ => Parser.map_of_eq parseString_append _
  | .text a, hd, n, l, hn => parseLevels_head (by decide) hd hn fun m _ => Parser.map_of_eq parseString_append _
  | .array items, hd, n, l, hn => parseLevels_head (by decide) hd.1 hn fun m hm =>
    Parser.map_of_eq (parseTimes_encodeItems items hd.2 m l hm) _
  | .map entries, hd, n, l, hn => parseLevels_head (by decide) hd.1 hn fun m hm =>
    Parser.map_of_eq (parseTimes_encodeEntries entries hd.2 m l hm) _
  | .tag k item, hd, n, l, hn => parseLevels_head (by decide) k.toNat_lt hn fun m hm => by
    simpa [parseContent] using Parser.map_of_eq (parseLevels_encode item hd m l hm) (Data.tag (.ofNat k.toNat))
  | .simple k, _, n, l, hn =>
    parseLevels_only_head (by decide) (lt_trans k.toNat_lt (by decide)) hn fun m => by
      simp [parseContent, Parser.pure, shortestInfo_le k.toNat_lt]
  | .half bits, _, n, l, hn =>
    parseLevels_float (j := 1) (by decide) bits.toNat_lt (le_trans (Nat.le_add_left 1 _) hn) fun m => by
      simp [parseContent, Parser.pure]
  | .single bits, _, n, l, hn =>
    parseLevels_float (j := 2) (by decide) bits.toNat_lt (le_trans (Nat.le_add_left 1 _) hn) fun m => by
      simp [parseContent, Parser.pure]
  | .double bits, _, n, l, hn =>
    parseLevels_float (j := 3) (by decide) bits.toNat_lt (le_trans (Nat.le_add_left 1 _) hn) fun m => by
      simp [parseContent, Parser.pure]

theorem parseTimes_encodeItems : ∀ (items : List Data), SizedItems items → ∀ (n : Nat) (l : List UInt8),
    (encodeItems items).length ≤ n → parseTimes (parseLevels n) items.length (encodeItems items ++ l) = some (items, l)
  | [], _, _, _, _ => rfl
  | item :: items, hd, n, l, hn => by
    rw [encodeItems, List.length_append] at hn
    have hitem := parseLevels_encode item hd.1 n (encodeItems items ++ l) (by omega)
    have hitems := parseTimes_encodeItems items hd.2 n l (by omega)
    rw [encodeItems, List.append_assoc]
    exact (Parser.bind_of_eq hitem _).trans (Parser.map_of_eq hitems _)

theorem parseTimes_encodeEntries : ∀ (entries : List (Data × Data)), SizedEntries entries → ∀ (n : Nat)
    (l : List UInt8), (encodeEntries entries).length ≤ n →
    parseTimes (parseEntry (parseLevels n)) entries.length (encodeEntries entries ++ l) = some (entries, l)
  | [], _, _, _, _ => rfl
  | (key, value) :: entries, hd, n, l, hn => by
    simp only [encodeEntries, List.length_append] at hn
    have hkey := parseLevels_encode key hd.1 n (value.encode ++ (encodeEntries entries ++ l)) (by omega)
    have hvalue := parseLevels_encode value hd.2.1 n (encodeEntries entries ++ l) (by omega)
    have hentries := parseTimes_encodeEntries entries hd.2.2 n l (by omega)
    have hentry : parseEntry (parseLevels n) (key.encode ++ (value.encode ++ (encodeEntries entries ++ l))) =
        some ((key, value), encodeEntries entries ++ l) :=
      (Parser.bind_of_eq hkey _).trans (Parser.map_of_eq hvalue _)
    rw [encodeEntries, List.append_assoc, List.append_assoc]
    exact (Parser.bind_of_eq hentry _).trans (Parser.map_of_eq hentries _)

end

theorem parse_encode (hd : d.Sized) (l : List UInt8) : parse (d.encode ++ l) = some (d, l) :=
  parseLevels_encode d hd _ l (by rw [List.length_append]; omega)

/-- A map is read whatever the width of its head. -/
theorem parse_long_map {entries : List (Data × Data)} (hentries : SizedEntries entries) {j : Nat} (hj : j < 4)
    (hlen : entries.length < 256 ^ 2 ^ j) :
    parse (UInt8.ofNat (5 * 32 + (24 + j)) :: (bigEndian (2 ^ j) entries.length ++ encodeEntries entries)) =
      some (.map entries, []) := by
  have hcontent := parseTimes_encodeEntries entries hentries
    (bigEndian (2 ^ j) entries.length ++ encodeEntries entries).length [] (by rw [List.length_append]; omega)
  rw [List.append_nil] at hcontent
  exact (Parser.bind_of_eq (readHead_long (by decide) hj hlen _) _).trans (Parser.map_of_eq hcontent _)

end RoundTrip

/-! ## Bytes that follow -/

/-- The second reader reads what the first does, when bytes are added at the end. -/
def Extends {α : Type} (p q : Parser α) : Prop :=
  ∀ l a r, p l = some (a, r) → ∀ x, q (l ++ x) = some (a, r ++ x)

section Extends

variable {α β : Type} {p q : Parser α} {n m : Nat}

theorem Extends.map (h : Extends p q) (f : α → β) : Extends (p.map f) (q.map f) := by
  intro l b r hb x
  obtain ⟨⟨a, r'⟩, ha, heq⟩ := Option.map_eq_some_iff.1 hb
  cases heq
  exact Parser.map_of_eq (h l a _ ha x) f

theorem Extends.bind {f g : α → Parser β} (h : Extends p q) (hfg : ∀ a, Extends (f a) (g a)) :
    Extends (p.bind f) (q.bind g) := by
  intro l b r hb x
  obtain ⟨⟨a, r'⟩, ha, heq⟩ := Option.bind_eq_some_iff.1 hb
  exact (Parser.bind_of_eq (h l a r' ha x) g).trans (hfg a r' b r heq x)

theorem extends_pure (a : α) : Extends (.pure a) (.pure a) := by
  intro l b r hb x
  cases hb
  rfl

theorem extends_string (n : Nat) : Extends (parseString n) (parseString n) := by
  intro l a r h x
  rw [parseString, Option.ite_none_right_eq_some] at h
  obtain ⟨hle, heq⟩ := h
  cases heq
  rw [parseString, if_pos (by rw [List.length_append]; omega), List.take_append_of_le_length hle,
    List.drop_append_of_le_length hle]

theorem extends_head : Extends readHead readHead := by
  intro l a r h x
  cases l with
  | nil => cases h
  | cons b l =>
    rw [readHead] at h
    rw [List.cons_append, readHead]
    by_cases hshort : b.toNat % 32 < 24
    · rw [if_pos hshort] at h ⊢
      cases h
      rfl
    · rw [if_neg hshort, Option.ite_none_right_eq_some] at h
      obtain ⟨hlong, heq⟩ := h
      cases heq
      rw [if_neg hshort, if_pos ⟨hlong.1, by rw [List.length_append]; omega⟩,
        List.take_append_of_le_length hlong.2, List.drop_append_of_le_length hlong.2]

theorem Extends.times (h : Extends p q) : ∀ k, Extends (parseTimes p k) (parseTimes q k)
  | 0 => extends_pure []
  | k + 1 => h.bind fun a => (h.times k).map (a :: ·)

theorem Extends.entry {p q : Parser Data} (h : Extends p q) : Extends (parseEntry p) (parseEntry q) :=
  h.bind fun key => h.map (key, ·)

theorem Extends.content {p q : Parser Data} (h : Extends p q) (hd : Head) :
    Extends (parseContent p hd) (parseContent q hd) := by
  unfold parseContent
  split
  · exact extends_pure _
  · exact extends_pure _
  · exact (extends_string _).map _
  · exact (extends_string _).map _
  · exact (h.times _).map _
  · exact (h.entry.times _).map _
  · exact h.map _
  · split_ifs <;> exact extends_pure _

theorem extends_levels : n ≤ m → Extends (parseLevels n) (parseLevels m) := by
  induction n generalizing m with
  | zero => intro _ l a r h; cases h
  | succ n ih =>
    intro hm
    obtain ⟨k, rfl⟩ : ∃ k, m = k + 1 := ⟨m - 1, by omega⟩
    exact extends_head.bind fun hd => (ih (by omega)).content hd

theorem parse_append {l r : List UInt8} {d : Data} (h : parse l = some (d, r)) (x : List UInt8) :
    parse (l ++ x) = some (d, r ++ x) :=
  extends_levels (by rw [List.length_append]; omega) l d r h x

end Extends

end Cbor
