/-
The mnemonic phrase of an entropy and the entropy of a phrase (`entropy_to_mnemonic` and `parse_mnemonic_phrase`,
`fortiq-core/src/authority/mnemonic.rs`) are inverse to each other. The 33 bytes of an entropy with its checksum and
the indices of the 24 words are the same 264 bits in groups of 8 and of 11; an index is found back because the words
are in strictly ascending order, and the words are found back because none has white space in it. Nothing is used of
SHA-256.
-/
import Fortiq.Authority.Mnemonic
import Fortiq.Authority.Wordlist
import Fortiq.Lib.Blocks

namespace Fortiq

/-! ## Bits -/

@[simp] theorem length_bitsOf (width n : Nat) : (bitsOf width n).length = width := by simp [bitsOf]

theorem bitsOf_succ (width n : Nat) : bitsOf (width + 1) n = n.testBit width :: bitsOf width n := by
  rw [bitsOf, List.range_succ_eq_map, List.map_cons, List.map_map]
  refine congrArg (List.cons _) (List.map_congr_left fun bit _ => ?_)
  show n.testBit (width + 1 - 1 - (bit + 1)) = n.testBit (width - 1 - bit)
  congr 1
  omega

theorem foldl_bits (bits : List Bool) : ∀ n : Nat,
    bits.foldl (fun n bit => 2 * n + bit.toNat) n = n * 2 ^ bits.length + ofBits bits := by
  induction bits with
  | nil => intro n; simp [ofBits]
  | cons bit bits ih =>
    intro n
    rw [ofBits, List.foldl_cons, List.foldl_cons, ih, ih (2 * 0 + bit.toNat), List.length_cons, pow_succ]
    ring

theorem ofBits_cons (bit : Bool) (bits : List Bool) :
    ofBits (bit :: bits) = bit.toNat * 2 ^ bits.length + ofBits bits := by
  rw [ofBits, List.foldl_cons, foldl_bits]
  simp

theorem ofBits_lt : ∀ bits : List Bool, ofBits bits < 2 ^ bits.length
  | [] => by simp [ofBits]
  | bit :: bits => by
    have hrest := ofBits_lt bits
    rw [ofBits_cons, List.length_cons, pow_succ]
    cases bit <;> simp <;> omega

theorem ofBits_bitsOf (width n : Nat) : ofBits (bitsOf width n) = n % 2 ^ width := by
  induction width with
  | zero => simp [bitsOf, ofBits, Nat.mod_one]
  | succ width ih =>
    rw [bitsOf_succ, ofBits_cons, length_bitsOf, ih, Nat.toNat_testBit, Nat.mod_pow_succ]
    ring

theorem bitsOf_mod (width n : Nat) : bitsOf width (n % 2 ^ width) = bitsOf width n := by
  refine List.map_congr_left fun bit hbit => ?_
  rw [List.mem_range] at hbit
  rw [Nat.testBit_mod_two_pow, decide_eq_true (by omega), Bool.true_and]

theorem bitsOf_ofBits : ∀ bits : List Bool, bitsOf bits.length (ofBits bits) = bits
  | [] => rfl
  | bit :: bits => by
    have hlt := ofBits_lt bits
    have hmod : ofBits (bit :: bits) % 2 ^ bits.length = ofBits bits := by
      rw [ofBits_cons, Nat.mul_add_mod_self_right, Nat.mod_eq_of_lt hlt]
    have hbit : (ofBits (bit :: bits)).testBit bits.length = bit := by
      rw [ofBits_cons, Nat.mul_comm, Nat.testBit_two_pow_mul_add _ hlt, if_neg (lt_irrefl _), Nat.sub_self]
      cases bit <;> rfl
    rw [List.length_cons, bitsOf_succ, hbit, ← bitsOf_mod, hmod, bitsOf_ofBits bits]

/-! ## Words -/

theorem lt_of_ascending : ∀ {l : List (List Char)}, ascending l = true → l.Pairwise (· < ·)
  | [], _ => .nil
  | [_], _ => List.pairwise_singleton _ _
  | a :: b :: l, h => by
    rw [ascending, Bool.and_eq_true, decide_eq_true_eq] at h
    have htail := lt_of_ascending h.2
    refine List.pairwise_cons.2 ⟨fun c hc => ?_, htail⟩
    rcases List.mem_cons.1 hc with rfl | hc
    · exact h.1
    · exact List.lt_trans h.1 ((List.pairwise_cons.1 htail).1 c hc)

/-- A word of the list is not empty, and has small letters only. -/
theorem mem_bip39English {w : String} (h : w ∈ bip39English) :
    w.toList = (utf8 w).map (fun b => Char.ofNat b.toNat) ∧ w.toList ≠ [] ∧ ∀ c ∈ w.toList, isWhitespace c = false := by
  have hw := List.all_eq_true.1 bip39English_letters w h
  simp only [Bool.and_eq_true, bne_iff_ne, ne_eq, List.length_eq_zero_iff, List.all_eq_true, decide_eq_true_eq] at hw
  obtain ⟨hne, hletters⟩ := hw
  have hlist := toList_of_ascii fun b hb => lt_of_le_of_lt (hletters b hb).2 (by decide)
  refine ⟨hlist, ?_, ?_⟩
  · rw [hlist]
    simpa using hne
  · rw [hlist]
    intro c hc
    obtain ⟨b, hb, rfl⟩ := List.mem_map.1 hc
    obtain ⟨hlow, hhigh⟩ := hletters b hb
    have hletter : ∀ n, 97 ≤ n → n ≤ 122 → isWhitespace (Char.ofNat n) = false := by decide
    exact hletter _ hlow hhigh

theorem pairwise_bip39English : bip39English.Pairwise (· < ·) := by
  have hchars : bip39English.map String.toList = bip39English.map fun w => (utf8 w).map fun b => Char.ofNat b.toNat :=
    List.map_congr_left fun w hw => (mem_bip39English hw).1
  have hsorted := lt_of_ascending bip39English_ascending
  rw [← hchars, List.pairwise_map] at hsorted
  exact hsorted.imp fun h => String.lt_iff.2 h

/-- The halving keeps the place of a word within its bounds. -/
theorem binarySearchBase_eq {words : List String} (hs : words.Pairwise (· < ·)) {i : Nat} {word : String}
    (hi : words[i]? = some word) : ∀ {fuel base size : Nat}, size ≤ fuel → base ≤ i → i < base + size →
      base + size ≤ words.length → binarySearchBase words word fuel base size = i
  | 0, base, size, hfuel, hlo, hhi, _ => by omega
  | fuel + 1, base, size, hfuel, hlo, hhi, hlen => by
    obtain ⟨hlt, rfl⟩ := List.getElem?_eq_some_iff.1 hi
    unfold binarySearchBase
    split
    · omega
    · rename_i hsize
      have hmid : base + size / 2 < words.length := by omega
      dsimp only
      rw [List.getD_eq_getElem _ _ hmid]
      -- the word at the middle is after the one that is sought exactly if its place is
      by_cases hle : base + size / 2 ≤ i
      · have hnot : ¬ words[i] < words[base + size / 2] := by
          rcases eq_or_lt_of_le hle with heq | hlt'
          · simp [heq]
          · exact String.lt_asymm (List.pairwise_iff_getElem.1 hs _ _ hmid hlt hlt')
        rw [if_neg hnot]
        exact binarySearchBase_eq hs hi (by omega) hle (by omega) (by omega)
      · have hyes : words[i] < words[base + size / 2] := List.pairwise_iff_getElem.1 hs _ _ hlt hmid (by omega)
        rw [if_pos hyes]
        exact binarySearchBase_eq hs hi (by omega) hlo (by omega) (by omega)

theorem wordToIndex_eq {env : MnemonicEnv} (hs : env.wordlist.Pairwise (· < ·)) {i : Nat} {word : String} :
    wordToIndex env word = some i ↔ env.wordlist[i]? = some word := by
  unfold wordToIndex
  dsimp only
  constructor
  · intro h
    split at h
    · rename_i hbase
      cases h
      exact hbase
    · cases h
  · intro h
    obtain ⟨hlt, -⟩ := List.getElem?_eq_some_iff.1 h
    rw [binarySearchBase_eq hs h le_rfl (Nat.zero_le _) (by omega) (by omega)]
    exact if_pos h

theorem wordIndices_ok {env : MnemonicEnv} (hs : env.wordlist.Pairwise (· < ·)) :
    ∀ {words : List String} {indices : List Nat}, wordIndices env words = .ok indices ↔
      indices.map (env.wordlist[·]?) = words.map some
  | [], indices => by
    rw [wordIndices, List.map_nil, List.map_eq_nil_iff, Except.ok.injEq]
    exact eq_comm
  | word :: words, indices => by
    unfold wordIndices
    cases hw : wordToIndex env word with
    | none =>
      refine iff_of_false (by simp) fun h => ?_
      cases indices with
      | nil => cases h
      | cons i indices =>
        rw [List.map_cons, List.map_cons, List.cons.injEq, ← wordToIndex_eq hs, hw] at h
        cases h.1
    | some i =>
      cases hws : wordIndices env words with
      | error e =>
        refine iff_of_false (by simp) fun h => ?_
        cases indices with
        | nil => cases h
        | cons j indices =>
          rw [List.map_cons, List.map_cons, List.cons.injEq, ← wordIndices_ok hs, hws] at h
          cases h.2
      | ok rest =>
        constructor
        · rintro ⟨⟩
          rw [List.map_cons, List.map_cons, (wordToIndex_eq hs).1 hw, (wordIndices_ok hs).1 hws]
        · intro h
          cases indices with
          | nil => cases h
          | cons j indices =>
            rw [List.map_cons, List.map_cons, List.cons.injEq, ← wordToIndex_eq hs, hw, ← wordIndices_ok hs, hws] at h
            obtain ⟨⟨⟩, ⟨⟩⟩ := h
            rfl

/-! ## Phrases -/

/-- A word without white space is read to its end. -/
theorem splitWords_append {w : List Char} (h : ∀ c ∈ w, isWhitespace c = false) :
    ∀ (word rest : List Char), splitWords word (w ++ rest) = splitWords (w.reverse ++ word) rest := by
  induction w with
  | nil => intro word rest; rfl
  | cons c w ih =>
    intro word rest
    have hc := h c (List.mem_cons_self ..)
    rw [List.cons_append, splitWords.eq_def]
    simp only [hc, Bool.false_eq_true, if_false]
    rw [ih fun d hd => h d (List.mem_cons_of_mem _ hd)]
    simp

theorem splitWords_space {word : List Char} (h : word ≠ []) (rest : List Char) :
    splitWords word (' ' :: rest) = String.ofList word.reverse :: splitWords [] rest := by
  have hspace : isWhitespace ' ' = true := by decide
  rw [splitWords.eq_def]
  cases word with
  | nil => exact absurd rfl h
  | cons c word => simp [hspace]

theorem splitWords_end {word : List Char} (h : word ≠ []) : splitWords word [] = [String.ofList word.reverse] := by
  rw [splitWords.eq_def]
  cases word with
  | nil => exact absurd rfl h
  | cons c word => rfl

/-- Words that are joined by spaces are split again. -/
theorem splitWhitespace_intercalate : ∀ {words : List String},
    (∀ w ∈ words, w.toList ≠ [] ∧ ∀ c ∈ w.toList, isWhitespace c = false) →
    splitWhitespace (" ".intercalate words) = words
  | [], _ => rfl
  | [w], h => by
    obtain ⟨hne, hw⟩ := h w (List.mem_cons_self ..)
    have hread := splitWords_append hw [] []
    rw [List.append_nil, List.append_nil, splitWords_end (by simpa using hne), List.reverse_reverse,
      String.ofList_toList] at hread
    simpa [splitWhitespace, String.toList_intercalate] using hread
  | w :: v :: words, h => by
    obtain ⟨hne, hw⟩ := h w (List.mem_cons_self ..)
    have hrest := splitWhitespace_intercalate fun x hx => h x (List.mem_cons_of_mem _ hx)
    have hlist : (" ".intercalate (w :: v :: words)).toList = w.toList ++ ' ' :: (" ".intercalate (v :: words)).toList := by
      simp [String.toList_intercalate, List.intercalate]
    rw [splitWhitespace, hlist, splitWords_append hw, List.append_nil, splitWords_space (by simpa using hne),
      List.reverse_reverse, String.ofList_toList]
    exact congrArg (List.cons w) hrest

/-! ## The round trip -/

/-- The bytes of an entropy and of its checksum, as bits. -/
def entropyBits (sha256 : List UInt8 → Vector UInt8 32) (entropy : MnemonicEntropy) : List Bool :=
  (entropy.toList ++ [getElem (sha256 entropy.toList) 0 (Nat.zero_lt_succ 31)]).flatMap fun b => bitsOf 8 b.toNat

theorem length_flatMap_bitsOf {α : Type} (width : Nat) (f : α → Nat) (l : List α) :
    (l.flatMap fun a => bitsOf width (f a)).length = width * l.length := by
  induction l with
  | nil => simp
  | cons a l ih => simp [ih]; ring

theorem length_entropyBits (sha256 : List UInt8 → Vector UInt8 32) (entropy : MnemonicEntropy) :
    (entropyBits sha256 entropy).length = 264 := by
  rw [entropyBits, length_flatMap_bitsOf]
  simp

/-- Bytes are read back from their bits. -/
theorem read_bytes (bytes : List UInt8) :
    Blocks.read 8 bytes.length (fun bits => (ofBits bits).toUInt8) (bytes.flatMap fun b => bitsOf 8 b.toNat) = bytes := by
  refine Blocks.read_flatMap fun b _ => ⟨length_bitsOf 8 _, ?_⟩
  rw [ofBits_bitsOf, Nat.mod_eq_of_lt b.toNat_lt]
  exact UInt8.ofNat_toNat

/-- Bits are written back from their bytes. -/
theorem flatMap_bytes {bits : List Bool} {k : Nat} (h : bits.length = 8 * k) :
    (Blocks.read 8 k (fun bits => (ofBits bits).toUInt8) bits).flatMap (fun b => bitsOf 8 b.toNat) = bits := by
  refine Blocks.flatMap_read (fun b hb => ?_) h
  have hlt := ofBits_lt b
  rw [hb] at hlt
  have hnat : (ofBits b).toUInt8.toNat = ofBits b := Nat.mod_eq_of_lt hlt
  rw [hnat, ← hb, bitsOf_ofBits]

theorem read_indices {indices : List Nat} (h : ∀ i ∈ indices, i < 2 ^ 11) :
    Blocks.read 11 indices.length ofBits (indices.flatMap (bitsOf 11)) = indices := by
  refine Blocks.read_flatMap fun i hi => ⟨length_bitsOf 11 i, ?_⟩
  rw [ofBits_bitsOf, Nat.mod_eq_of_lt (h i hi)]

theorem flatMap_indices {bits : List Bool} {k : Nat} (h : bits.length = 11 * k) :
    (Blocks.read 11 k ofBits bits).flatMap (bitsOf 11) = bits := by
  refine Blocks.flatMap_read (fun b hb => ?_) h
  rw [← hb, bitsOf_ofBits]

theorem mapM_eq_some {α β : Type} {f : α → Option β} : ∀ {l : List α} {m : List β},
    l.mapM f = some m ↔ l.map f = m.map some
  | [], m => by cases m <;> simp
  | a :: l, m => by
    rw [List.mapM_cons]
    cases hf : f a with
    | none => cases m <;> simp [hf]
    | some b =>
      cases hl : l.mapM f with
      | none =>
        refine iff_of_false (by simp) fun h => ?_
        cases m with
        | nil => cases h
        | cons c m =>
          rw [List.map_cons, List.map_cons, List.cons.injEq, ← mapM_eq_some, hl] at h
          cases h.2
      | some bs =>
        have hbs := mapM_eq_some.1 hl
        cases m with
        | nil => simp
        | cons c m => simp [hf, hbs, (List.map_injective_iff.2 (Option.some_injective β)).eq_iff]

section Env

variable {env : MnemonicEnv}

/-- A phrase is made of the words whose indices are the bits of the entropy, 11 at a time. -/
theorem entropyToMnemonic_eq {entropy : MnemonicEntropy} {phrase : String} :
    entropyToMnemonic env entropy = some phrase ↔ ∃ words : List String,
      (Blocks.read 11 24 ofBits (entropyBits env.sha256 entropy)).map (env.wordlist[·]?) = words.map some ∧
        phrase = " ".intercalate words := by
  have hmap : ∀ bits : List Bool, (List.range 24).map (fun i => env.wordlist[ofBits ((bits.drop (11 * i)).take 11)]?) =
      (Blocks.read 11 24 ofBits bits).map (env.wordlist[·]?) := fun bits => by rw [Blocks.read, List.map_map]; rfl
  rw [entropyToMnemonic, Option.map_eq_some_iff]
  simp only [mapM_eq_some, hmap, eq_comm (a := phrase)]
  rfl

/-- The first 32 bytes and the last. -/
theorem range_map_eq_append (g : Nat → UInt8) {entropy : MnemonicEntropy} {checksum : UInt8} :
    (List.range 33).map g = entropy.toList ++ [checksum] ↔ (Vector.ofFn fun i : Fin 32 => g i) = entropy ∧ checksum = g 32 := by
  have hfirst : (List.range 32).map g = (Vector.ofFn fun i : Fin 32 => g i).toList := by
    refine List.ext_getElem (by simp) fun i _ _ => ?_
    simp
  rw [List.range_succ, List.map_append, hfirst, List.map_singleton]
  constructor
  · intro h
    obtain ⟨hvec, hlast⟩ := List.append_inj h (by simp)
    exact ⟨Vector.toList_inj.1 hvec, (List.singleton_inj.1 hlast).symm⟩
  · rintro ⟨rfl, rfl⟩
    rfl

/-- A phrase is read if it has 24 words of the list whose bits are those of the entropy. -/
theorem parseMnemonicPhrase_ok (hs : env.wordlist.Pairwise (· < ·)) {phrase : String} {entropy : MnemonicEntropy} :
    parseMnemonicPhrase env phrase = .ok entropy ↔ ∃ indices : List Nat, indices.length = 24 ∧
      indices.map (env.wordlist[·]?) = (splitWhitespace phrase).map some ∧
      indices.flatMap (bitsOf 11) = entropyBits env.sha256 entropy := by
  have hbits : ∀ {indices : List Nat}, indices.length = 24 →
      (indices.flatMap (bitsOf 11) = entropyBits env.sha256 entropy ↔
        Blocks.read 8 33 (fun bits => (ofBits bits).toUInt8) (indices.flatMap (bitsOf 11)) =
          entropy.toList ++ [(env.sha256 entropy.toList)[0]]) := by
    intro indices hlen
    have h264 : (indices.flatMap (bitsOf 11)).length = 8 * 33 :=
      (length_flatMap_bitsOf 11 id indices).trans (by rw [hlen])
    constructor
    · intro h
      have h33 : (entropy.toList ++ [(env.sha256 entropy.toList)[0]]).length = 33 := by simp
      have hread := read_bytes (entropy.toList ++ [(env.sha256 entropy.toList)[0]])
      rw [h33] at hread
      rw [h]
      exact hread
    · intro h
      rw [← flatMap_bytes h264, h]
      rfl
  unfold parseMnemonicPhrase
  dsimp only
  by_cases hlen : (splitWhitespace phrase).length = 24
  · rw [if_neg (not_not.2 hlen)]
    cases hw : wordIndices env (splitWhitespace phrase) with
    | error e =>
      refine iff_of_false (by simp) ?_
      rintro ⟨indices, -, hmap, -⟩
      rw [(wordIndices_ok hs).2 hmap] at hw
      cases hw
    | ok indices =>
      have hmap := (wordIndices_ok hs).1 hw
      have hlen' : indices.length = 24 := by simpa [hlen] using congrArg List.length hmap
      have honly : (∃ indices : List Nat, indices.length = 24 ∧
            indices.map (env.wordlist[·]?) = (splitWhitespace phrase).map some ∧
            indices.flatMap (bitsOf 11) = entropyBits env.sha256 entropy) ↔
          indices.flatMap (bitsOf 11) = entropyBits env.sha256 entropy := by
        constructor
        · rintro ⟨indices', -, hmap', hb⟩
          have hw' := (wordIndices_ok hs).2 hmap'
          rw [hw] at hw'
          cases hw'
          exact hb
        · exact fun hb => ⟨indices, hlen', hmap, hb⟩
      rw [honly, hbits hlen', Blocks.read, range_map_eq_append]
      dsimp only
      split
      · rename_i hsum
        refine iff_of_false (by simp) ?_
        rintro ⟨rfl, heq⟩
        exact hsum heq
      · rename_i hsum
        rw [not_not] at hsum
        rw [Except.ok.injEq]
        constructor
        · rintro rfl
          exact ⟨rfl, hsum⟩
        · exact fun h => h.1
  · rw [if_pos hlen]
    refine iff_of_false (by simp) ?_
    rintro ⟨indices, hlen', hmap, -⟩
    have := congrArg List.length hmap
    simp only [List.length_map] at this
    omega

variable (hs : env.wordlist.Pairwise (· < ·)) (hlen : env.wordlist.length = 2 ^ 11)
include hs hlen

/-- The phrase of an entropy that was read has the words that were read. -/
theorem phrase_of_parse {phrase : String} {entropy : MnemonicEntropy}
    (h : parseMnemonicPhrase env phrase = .ok entropy) :
    entropyToMnemonic env entropy = some (" ".intercalate (splitWhitespace phrase)) := by
  obtain ⟨indices, h24, hmap, hbits⟩ := (parseMnemonicPhrase_ok hs).1 h
  have hlt : ∀ i ∈ indices, i < 2 ^ 11 := by
    intro i hi
    have hmem : env.wordlist[i]? ∈ (splitWhitespace phrase).map some := by
      rw [← hmap]
      exact List.mem_map_of_mem hi
    obtain ⟨word, -, hword⟩ := List.mem_map.1 hmem
    rw [← hlen]
    exact (List.getElem?_eq_some_iff.1 hword.symm).1
  have hread := read_indices hlt
  rw [h24, hbits] at hread
  exact entropyToMnemonic_eq.2 ⟨_, by rw [hread, hmap], rfl⟩

/-- Every entropy has a phrase, and is read from it. -/
theorem parse_of_phrase
    (hwords : ∀ w ∈ env.wordlist, w.toList ≠ [] ∧ ∀ c ∈ w.toList, isWhitespace c = false) (entropy : MnemonicEntropy) :
    ∃ phrase, entropyToMnemonic env entropy = some phrase ∧ parseMnemonicPhrase env phrase = .ok entropy := by
  let indices := Blocks.read 11 24 ofBits (entropyBits env.sha256 entropy)
  have hbits : indices.flatMap (bitsOf 11) = entropyBits env.sha256 entropy :=
    flatMap_indices (length_entropyBits env.sha256 entropy)
  have hlt : ∀ i ∈ indices, i < env.wordlist.length := by
    intro i hi
    obtain ⟨j, -, rfl⟩ := List.mem_map.1 hi
    rw [hlen]
    exact (ofBits_lt _).trans_le (Nat.pow_le_pow_right (by decide) (List.length_take_le _ _))
  -- all the words are there
  have hmap : indices.map (env.wordlist[·]?) = (indices.map (env.wordlist.getD · "")).map some := by
    rw [List.map_map]
    refine List.map_congr_left fun i hi => ?_
    simp [List.getElem?_eq_getElem (hlt i hi)]
  have hsplit : splitWhitespace (" ".intercalate (indices.map (env.wordlist.getD · ""))) =
      indices.map (env.wordlist.getD · "") := by
    refine splitWhitespace_intercalate fun w hw => ?_
    obtain ⟨i, hi, rfl⟩ := List.mem_map.1 hw
    rw [List.getD_eq_getElem _ _ (hlt i hi)]
    exact hwords _ (List.getElem_mem _)
  exact ⟨_, entropyToMnemonic_eq.2 ⟨_, hmap, rfl⟩,
    (parseMnemonicPhrase_ok hs).2 ⟨indices, Blocks.length_read _ _, by rw [hsplit, hmap], hbits⟩⟩

end Env

/-- With the word list of the repository and any SHA-256: an entropy is read back from its phrase, and the phrase of an
entropy that was read is the words of the text with single spaces between them. -/
theorem mnemonic_round_trip (sha256 : List UInt8 → Vector UInt8 32)
    (hkdf : (salt ikm info : List UInt8) → Except String (Vector UInt8 32)) :
    (∀ entropy, ∃ phrase, entropyToMnemonic ⟨sha256, hkdf, bip39English⟩ entropy = some phrase ∧
      parseMnemonicPhrase ⟨sha256, hkdf, bip39English⟩ phrase = .ok entropy) ∧
    ∀ phrase entropy, parseMnemonicPhrase ⟨sha256, hkdf, bip39English⟩ phrase = .ok entropy →
      entropyToMnemonic ⟨sha256, hkdf, bip39English⟩ entropy = some (" ".intercalate (splitWhitespace phrase)) :=
  ⟨parse_of_phrase pairwise_bip39English length_bip39English fun _ hw => (mem_bip39English hw).2,
    fun _ _ => phrase_of_parse pairwise_bip39English length_bip39English⟩

end Fortiq
