/-
The owner's mnemonic phrase and the keys derived from it (`fortiq-core/src/authority/mnemonic.rs`). SHA-256 and
HKDF are external, and the word list is a file; a `MnemonicEnv` gives them.
-/
import Fortiq.Object.Basic

namespace Fortiq

structure MnemonicEnv where
  sha256 : List UInt8 → Vector UInt8 32
  /-- `Hkdf::<Sha256>::new(Some(salt), ikm).expand(info, okm)` for 32 bytes; the text of its error. -/
  hkdf : (salt ikm info : List UInt8) → Except String (Vector UInt8 32)
  /-- The lines of `bip39_english.txt`. -/
  wordlist : List String

abbrev MnemonicEntropy := Vector UInt8 32

abbrev Seed := Vector UInt8 32

inductive MnemonicError where
  | invalidWordCount (count : Nat)
  | unknownWord (word : String)
  | invalidChecksum
  | derivationFailed (text : String)
deriving DecidableEq, Repr

namespace MnemonicError

def text : MnemonicError → String
  | invalidWordCount count => "invalid word count: expected 24 words, got " ++ toString count
  | unknownWord word => "unknown word in mnemonic phrase: '" ++ word ++ "'"
  | invalidChecksum => "invalid mnemonic checksum"
  | derivationFailed text => "HKDF key derivation failed: " ++ text

end MnemonicError

/-! ## The phrase -/

/-- `char::is_whitespace`. -/
def isWhitespace (c : Char) : Bool :=
  let n := c.toNat
  (9 ≤ n && n ≤ 13) || n = 0x20 || n = 0x85 || n = 0xa0 || n = 0x1680 || (0x2000 ≤ n && n ≤ 0x200a) || n = 0x2028 ||
    n = 0x2029 || n = 0x202f || n = 0x205f || n = 0x3000

/-- The words of a text; `word` is the one being read, backwards. -/
def splitWords : (word : List Char) → List Char → List String
  | [], [] => []
  | word, [] => [String.ofList word.reverse]
  | word, c :: cs =>
    if isWhitespace c then
      match word with
      | [] => splitWords [] cs
      | word => String.ofList word.reverse :: splitWords [] cs
    else splitWords (c :: word) cs

/-- `str::split_whitespace`. -/
def splitWhitespace (text : String) : List String := splitWords [] text.toList

/-- Where the halving of `slice::binary_search` ends. -/
def binarySearchBase (words : List String) (word : String) : (fuel base size : Nat) → Nat
  | 0, base, _ => base
  | fuel + 1, base, size =>
    if size ≤ 1 then base
    else
      let half := size / 2
      let mid := base + half
      binarySearchBase words word fuel (if word < words.getD mid "" then base else mid) (size - half)

def wordToIndex (env : MnemonicEnv) (word : String) : Option Nat :=
  let base := binarySearchBase env.wordlist word env.wordlist.length 0 env.wordlist.length
  if env.wordlist[base]? = some word then some base else none

/-- The lowest `width` bits of a number, the highest first. -/
def bitsOf (width n : Nat) : List Bool := (List.range width).map fun bit => n.testBit (width - 1 - bit)

/-- The number with these bits, the highest first. -/
def ofBits (bits : List Bool) : Nat := bits.foldl (fun n bit => 2 * n + bit.toNat) 0

/-- The indices of words, or the first word that is not in the list. -/
def wordIndices (env : MnemonicEnv) : List String → Except MnemonicError (List Nat)
  | [] => .ok []
  | word :: words =>
    match wordToIndex env word with
    | none => .error (.unknownWord word)
    | some index =>
      match wordIndices env words with
      | .error e => .error e
      | .ok indices => .ok (index :: indices)

def parseMnemonicPhrase (env : MnemonicEnv) (phrase : String) : Except MnemonicError MnemonicEntropy :=
  let words := splitWhitespace phrase
  if words.length ≠ 24 then .error (.invalidWordCount words.length)
  else
    match wordIndices env words with
    | .error e => .error e
    | .ok indices =>
      let bits := indices.flatMap (bitsOf 11)
      let byteAt := fun i => (ofBits ((bits.drop (8 * i)).take 8)).toUInt8
      let entropy : MnemonicEntropy := Vector.ofFn fun i : Fin 32 => byteAt i
      let expectedChecksum := byteAt 32
      let actualChecksum := (env.sha256 entropy.toList)[0]
      if actualChecksum ≠ expectedChecksum then .error .invalidChecksum else .ok entropy

/-- The phrase of an entropy; `none` is the panic of an index that is not in the word list. -/
def entropyToMnemonic (env : MnemonicEnv) (entropy : MnemonicEntropy) : Option String :=
  let checksum := (env.sha256 entropy.toList)[0]
  let bytes := entropy.toList ++ [checksum]
  let bits := bytes.flatMap fun b => bitsOf 8 b.toNat
  let words := (List.range 24).mapM fun i => env.wordlist[ofBits ((bits.drop (11 * i)).take 11)]?
  words.map fun words => " ".intercalate words

/-! ## Derivation -/

def mnemonicKdfSalt : String := "FORTIQ-MNEMONIC-KDF-SALT-v1:"

namespace MnemonicDeriver

variable (env : MnemonicEnv) (entropy : MnemonicEntropy)

/-- One expansion under the common salt. -/
def expand (info : List UInt8) : Except MnemonicError Seed :=
  match env.hkdf (utf8 mnemonicKdfSalt) entropy.toList info with
  | .error text => .error (.derivationFailed text)
  | .ok okm => .ok okm

def deriveRootSigningSeed : Except MnemonicError Seed := expand env entropy (utf8 "FORTIQ-OWNER-ROOT-SIGNING-v1:")

def deriveSegmentMasterSeed : Except MnemonicError Seed := expand env entropy (utf8 "FORTIQ-OWNER-SEGMENT-MASTER-v1:")

def deriveOperatorSessionSeed (sessionNonce : Vector UInt8 16) : Except MnemonicError Seed :=
  expand env entropy (utf8 "FORTIQ-OPERATOR-SESSION-v1:" ++ sessionNonce.toList)

end MnemonicDeriver

end Fortiq
