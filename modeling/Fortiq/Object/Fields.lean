/-
Fields as bytes. Ids, keys and numbers have fixed widths, so what is signed or hashed field after field is told apart
field by field.
-/
import Fortiq.Lib.Delimit
import Fortiq.Object.Basic

namespace Fortiq

theorem delimits_objectId : DelimitsOn Set.univ (fun i : ObjectId => i.bytes.toList) :=
  .of_length (n := 32) (fun i => by simp) fun a _ b _ h => by
    cases a; cases b; exact congrArg ObjectId.mk (Vector.toList_inj.1 h)

theorem delimits_publicKey : DelimitsOn Set.univ (fun k : PublicKey => k.bytes.toList) :=
  .of_length (n := 32) (fun k => by simp) fun a _ b _ h => by
    cases a; cases b; exact congrArg PublicKey.mk (Vector.toList_inj.1 h)

/-- The digits of a number in base 256, as bytes. -/
theorem eq_of_map_digits {k n m : Nat} (hn : n < 256 ^ k) (hm : m < 256 ^ k)
    (h : (List.range k).map (fun i => (n / 256 ^ i).toUInt8) = (List.range k).map fun i => (m / 256 ^ i).toUInt8) :
    n = m := by
  refine eq_of_digits (b := 256) (by decide) hn hm fun i hi => ?_
  have hi' := congrArg (fun l => l[i]?) h
  simp only [List.getElem?_map, List.getElem?_range hi, Option.map_some, Option.some.injEq] at hi'
  simpa using congrArg UInt8.toNat hi'

theorem leBytes_injective : Function.Injective leBytes := fun a b h =>
  UInt64.toNat_inj.1 (eq_of_map_digits (k := 8) (by simpa using a.toNat_lt) (by simpa using b.toNat_lt) h)

theorem leBytes32_injective : Function.Injective leBytes32 := fun a b h =>
  UInt32.toNat_inj.1 (eq_of_map_digits (k := 4) (by simpa using a.toNat_lt) (by simpa using b.toNat_lt) h)

theorem delimits_leBytes : DelimitsOn Set.univ leBytes :=
  .of_length (n := 8) (fun a => by simp [leBytes]) leBytes_injective.injOn

theorem delimits_leBytes32 : DelimitsOn Set.univ leBytes32 :=
  .of_length (n := 4) (fun a => by simp [leBytes32]) leBytes32_injective.injOn

theorem beBytes_injective : Function.Injective beBytes := List.reverse_injective.comp leBytes_injective

theorem delimits_beBytes : DelimitsOn Set.univ beBytes :=
  .of_length (n := 8) (fun a => by simp [beBytes, leBytes]) beBytes_injective.injOn

/-- A length as a big-endian `u32`, for lengths that fit. -/
theorem delimits_length : DelimitsOn {n : Nat | n < 2 ^ 32} (fun n => beBytes32 n.toUInt32) := by
  refine .of_length (n := 4) (fun a => by simp [beBytes32, leBytes32]) fun a ha b hb h => ?_
  have h32 : a % 2 ^ 32 = b % 2 ^ 32 := by
    simpa using congrArg UInt32.toNat (leBytes32_injective (List.reverse_injective h))
  rwa [Nat.mod_eq_of_lt ha, Nat.mod_eq_of_lt hb] at h32

theorem utf8_injective : Function.Injective utf8 := fun _ _ h =>
  String.toByteArray_inj.1 (ByteArray.ext (Array.toList_inj.1 h))

theorem utf8_ofList (l : List Char) : utf8 (String.ofList l) = l.flatMap String.utf8EncodeChar := by
  show (String.ofList l).toByteArray.data.toList = _
  rw [String.toByteArray_ofList]
  simp [List.utf8Encode]

/-- A text whose bytes are all below 0x80 has one character for each. -/
theorem toList_of_ascii {s : String} (h : ∀ b ∈ utf8 s, b.toNat < 128) :
    s.toList = (utf8 s).map fun b => Char.ofNat b.toNat := by
  have hbytes : utf8 s = s.toList.flatMap String.utf8EncodeChar := by rw [← utf8_ofList, String.ofList_toList]
  rw [hbytes] at h ⊢
  generalize s.toList = l at h ⊢
  induction l with
  | nil => rfl
  | cons c l ih =>
    rw [List.flatMap_cons, List.map_append, ← ih fun b hb => h b (by rw [List.flatMap_cons]; simp [hb])]
    -- a longer character begins with a byte from 0xc0 on
    have hshort : c.val.toNat ≤ 127 := by
      by_contra hlong
      have hb := fun b hb => h b (by rw [List.flatMap_cons]; exact List.mem_append_left _ hb)
      rw [String.utf8EncodeChar] at hb
      simp only [hlong, if_false] at hb
      split_ifs at hb <;> have := hb _ (List.mem_cons_self ..) <;> simp at this <;> omega
    have henc : String.utf8EncodeChar c = [c.val.toNat.toUInt8] := by
      rw [String.utf8EncodeChar]
      exact if_pos hshort
    have hbyte : c.val.toNat.toUInt8.toNat = c.val.toNat := Nat.mod_eq_of_lt (show c.val.toNat < 256 by omega)
    rw [henc, List.map_singleton, hbyte]
    exact congrArg (· :: l) (Char.ofNat_toNat c).symm

end Fortiq
