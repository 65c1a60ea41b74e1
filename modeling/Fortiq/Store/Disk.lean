/-
The files of the object store (`fortiq-core/src/store/fs.rs`). An object is written to a temporary file of its own
and renamed to `objects/<xx>/<id>.cbor`; reading it decodes the file and verifies what it holds. A call of `put` is a
task of single file operations, since remote objects are stored outside the engine's locks: a run interleaves the
operations of any number of tasks, and the process may end between any two of them. The last bytes of a file are
those that the `BufWriter` still holds when it is dropped; a failure to write them is not reported.
-/
import Fortiq.Engine.Basic
import Fortiq.Event.Table
import Fortiq.Lib.CborData
import Fortiq.Lib.FileSystem
import Fortiq.Lib.Machine

namespace Fortiq

/-! ## Names -/

/-- The files below the root of the store. -/
inductive StorePath where
  | object (shard name : String)
  | tmp (name : String)
deriving DecidableEq, Repr

namespace StorePath

def display (root : String) : StorePath → String
  | object shard name => root ++ "/objects/" ++ shard ++ "/" ++ name
  | tmp name => root ++ "/tmp/" ++ name

/-- The name of the file in its directory. -/
def fileName : StorePath → String
  | object _ name => name
  | tmp name => name

def isObject : StorePath → Bool
  | object _ _ => true
  | tmp _ => false

end StorePath

/-- What follows the last dot of a name that does not begin with it. -/
def extensionOf (name : List Char) : Option (List Char) :=
  let after := name.reverse.takeWhile (· ≠ '.')
  match name.reverse.dropWhile (· ≠ '.') with
  | _ :: _ :: _ => if name = ['.', '.'] then none else some after.reverse
  | _ => none

/-- `hex[..2]`. -/
def shardOf (id : ObjectId) : String := String.ofList (id.toHex.toList.take 2)

def objectPath (id : ObjectId) : StorePath := .object (shardOf id) (id.toHex ++ ".cbor")

def tmpPath (uuid : String) : StorePath := .tmp (uuid ++ ".tmp")

/-! ## Encoding -/

/-- The derived serializer: ids, keys and signatures are byte strings, and a vector of bytes is a list of numbers. -/
def SignedObject.serialize (obj : SignedObject) : Cbor.Data :=
  .map [(.text (utf8 "id"), .bytes obj.id.bytes.toList), (.text (utf8 "author"), .bytes obj.author.bytes.toList),
    (.text (utf8 "created_at"), .unsigned obj.createdAt),
    (.text (utf8 "payload"), .array (obj.payload.map fun b => .unsigned b.toUInt64)),
    (.text (utf8 "signature"), .bytes obj.signature.bytes.toList)]

/-- `ciborium::into_writer`. -/
def SignedObject.toCbor (obj : SignedObject) : List UInt8 := obj.serialize.encode

/-- What the store finds outside: the primitives, `ciborium`'s reader of objects as a function of the first item with
the text of its errors, and where the store lies. -/
structure StoreEnv where
  crypto : Crypto
  fromItem : Cbor.Data → Option SignedObject
  decodeError : List UInt8 → String
  root : String

namespace StoreEnv

/-- `ciborium::from_reader`. -/
def fromCbor (env : StoreEnv) (bytes : List UInt8) : Result SignedObject :=
  match (Cbor.parse bytes).bind fun p => env.fromItem p.1 with
  | some obj => .ok obj
  | none => .error (.msg (env.decodeError bytes))

/-- What the serializer writes, the reader takes for the same object. -/
def RoundTrips (env : StoreEnv) : Prop := ∀ obj : SignedObject, env.fromItem obj.serialize = some obj

end StoreEnv

/-! ## Reading -/

theorem Result.ok_bind {α β : Type} (a : α) (f : α → Result β) : (Except.ok a >>= f) = f a := rfl

theorem Result.error_bind {α β : Type} (e : Error) (f : α → Result β) : (Except.error e >>= f) = .error e := rfl

abbrev StoreFiles := FileSystem StorePath UInt8

section Read

variable (env : StoreEnv)

def getObjectFile (fs : StoreFiles) (id : ObjectId) : Result (Option SignedObject) :=
  let path := (objectPath id).display env.root
  match fs.read (objectPath id) with
  | none => .ok none
  | some bytes => do
    let obj ← Result.context ("failed to decode object " ++ path) (env.fromCbor bytes)
    if obj.id ≠ id then throw (.msg ("object file " ++ path ++ " ID mismatch: expected " ++ id.toHex))
    Result.context "corrupted object signature in store" (obj.verify env.crypto)
    return some obj

/-- The files of the shards in the order of a directory walk; a file that does not decode or verify fails the load. -/
def loadAllObjectFiles (fs : StoreFiles) : (walk : List StorePath) → Result (List SignedObject)
  | [] => .ok []
  | path :: walk =>
    if extensionOf path.fileName.toList ≠ some "cbor".toList then loadAllObjectFiles fs walk
    else
      match fs.read path with
      | none => .error (.context ("failed to read object file " ++ path.display env.root) (.disk "entity not found"))
      | some bytes => do
        let obj ← Result.context ("failed to decode object " ++ path.display env.root) (env.fromCbor bytes)
        Result.context ("corrupted object in store: " ++ path.display env.root) (obj.verify env.crypto)
        let objects ← loadAllObjectFiles fs walk
        return obj :: objects

/-- A walk of the shards: each file once. -/
structure Walks (fs : StoreFiles) (walk : List StorePath) : Prop where
  nodup : walk.Nodup
  mem_iff : ∀ path, path ∈ walk ↔ path.isObject = true ∧ fs.read path ≠ none

end Read

/-! ## Writing -/

/-- Where a call of `put` stands. -/
inductive PutPhase where
  /-- The object verifies; whether its file exists is to be asked. -/
  | checking
  | makingDir
  | creating
  /-- So many bytes have reached the temporary file. -/
  | writing (written : Nat)
  /-- The writer is dropped. -/
  | closed (written : Nat)
deriving DecidableEq, Repr

structure PutTask where
  obj : SignedObject
  uuid : String
  phase : PutPhase

/-- The files and the running calls; and beside them the names given to temporary files, which renames there were,
latest first, of how many bytes, and what the calls returned. -/
structure StoreState where
  fs : StoreFiles
  tasks : List PutTask
  uuids : List String
  renamed : List (SignedObject × Nat)
  returned : List (SignedObject × Result ObjectId)

inductive StoreLabel where
  | put (obj : SignedObject) (uuid : String)
  | checkExists (i : Nat)
  | makeDir (i : Nat) (fails : Option String)
  | create (i : Nat) (fails : Option String)
  /-- The buffer is full and goes to the file. -/
  | write (i : Nat) (count : Nat)
  /-- The buffer cannot be written; as the writer is dropped it tries once more. -/
  | writeFails (i : Nat) (text : String) (count : Nat)
  /-- The writer is dropped: what it holds goes to the file, or a part of it. -/
  | close (i : Nat) (count : Nat)
  | rename (i : Nat) (fails : Option String)
  /-- The process ends. -/
  | crash

/-- The capacity of a `BufWriter`. -/
def bufferCapacity : Nat := 8 * 1024

namespace StoreState

def setPhase (s : StoreState) (i : Nat) (t : PutTask) (phase : PutPhase) : StoreState :=
  { s with tasks := s.tasks.set i { t with phase } }

/-- The call returns. -/
def finish (s : StoreState) (i : Nat) (t : PutTask) (result : Result ObjectId) : StoreState :=
  { s with tasks := s.tasks.eraseIdx i, returned := s.returned ++ [(t.obj, result)] }

section Steps

variable (env : StoreEnv)

def stepTask (s : StoreState) (i : Nat) (t : PutTask) : StoreLabel → StoreState
  | .checkExists _ =>
    if s.fs.read (objectPath t.obj.id) ≠ none then s.finish i t (.ok t.obj.id) else s.setPhase i t .makingDir
  | .makeDir _ (some text) =>
    s.finish i t (.error (.context ("failed to create shard dir " ++ env.root ++ "/objects/" ++ shardOf t.obj.id) (.disk text)))
  | .makeDir _ none => s.setPhase i t .creating
  | .create _ (some text) =>
    s.finish i t (.error (.context ("failed to create temp file " ++ (tmpPath t.uuid).display env.root) (.disk text)))
  | .create _ none => { s with fs := s.fs.create (tmpPath t.uuid) }.setPhase i t (.writing 0)
  | .write _ count =>
    match t.phase with
    | .writing written =>
      { s with fs := s.fs.append (tmpPath t.uuid) ((t.obj.toCbor.drop written).take count) }.setPhase i t
        (.writing (written + count))
    | _ => s
  | .writeFails _ text count =>
    match t.phase with
    | .writing written =>
      { s with fs := s.fs.append (tmpPath t.uuid) ((t.obj.toCbor.drop written).take count) }.finish i t
        (.error (.context "failed to serialize SignedObject to CBOR" (.disk text)))
    | _ => s
  | .close _ count =>
    match t.phase with
    | .writing written =>
      { s with fs := s.fs.append (tmpPath t.uuid) ((t.obj.toCbor.drop written).take count) }.setPhase i t
        (.closed (written + count))
    | _ => s
  | .rename _ (some text) =>
    s.finish i t (.error (.context ("failed to move temp file " ++ (tmpPath t.uuid).display env.root ++ " to " ++
      (objectPath t.obj.id).display env.root) (.disk text)))
  | .rename _ none =>
    match t.phase with
    | .closed written =>
      { s with fs := s.fs.rename (tmpPath t.uuid) (objectPath t.obj.id),
               renamed := (t.obj, written) :: s.renamed }.finish i t (.ok t.obj.id)
    | _ => s
  | _ => s

/-- The task a step belongs to. -/
def taskOf : StoreLabel → Option Nat
  | .put _ _ | .crash => none
  | .checkExists i | .makeDir i _ | .create i _ | .write i _ | .writeFails i _ _ | .close i _ | .rename i _ => some i

def step (s : StoreState) (l : StoreLabel) : StoreState :=
  match l with
  | .put obj uuid =>
    match Result.context "cannot store invalid SignedObject" (obj.verify env.crypto) with
    | .error e => { s with returned := s.returned ++ [(obj, .error e)] }
    | .ok () => { s with tasks := s.tasks ++ [⟨obj, uuid, .checking⟩], uuids := uuid :: s.uuids }
  | .crash => { s with tasks := [] }
  | l =>
    match taskOf l with
    | none => s
    | some i =>
      match s.tasks[i]? with
      | none => s
      | some t => s.stepTask env i t l

end Steps

/-- The phases in which a task takes a step; the writer holds at most its capacity. -/
def takes (t : PutTask) : StoreLabel → Bool
  | .checkExists _ => t.phase = .checking
  | .makeDir _ _ => t.phase = .makingDir
  | .create _ _ => t.phase = .creating
  | .write _ count =>
    match t.phase with
    | .writing written => 0 < count ∧ written + count ≤ t.obj.toCbor.length
    | _ => false
  | .writeFails _ _ _ =>
    match t.phase with
    | .writing _ => true
    | _ => false
  | .close _ count =>
    match t.phase with
    | .writing written => written + count ≤ t.obj.toCbor.length ∧ t.obj.toCbor.length ≤ written + bufferCapacity
    | _ => false
  | .rename _ _ =>
    match t.phase with
    | .closed _ => true
    | _ => false
  | _ => false

/-- Uuids are fresh, a payload fits the address space, and a task takes the step of its phase. -/
def enabled (s : StoreState) : StoreLabel → Bool
  | .put obj uuid => uuid ∉ s.uuids ∧ obj.payload.length < 2 ^ 64
  | .crash => true
  | l => (taskOf l).any fun i => s.tasks[i]?.any fun t => takes t l

end StoreState

/-- The store from its first start, with any calls, failures and ends of the process. -/
def storeMachine (env : StoreEnv) : Machine StoreState StoreLabel where
  start := fun s => s.fs = FileSystem.empty ∧ s.tasks = [] ∧ s.uuids = [] ∧ s.renamed = [] ∧ s.returned = []
  enabled := fun s l => s.enabled l = true
  step := fun s l => s.step env l

instance (env : StoreEnv) (s : StoreState) (l : StoreLabel) : Decidable ((storeMachine env).enabled s l) :=
  inferInstanceAs (Decidable (s.enabled l = true))

/-! ## A sample: two calls, one of which loses its last bytes -/

namespace DiskSample

def readBytes (n : Nat) (l : List UInt8) : Option (Vector UInt8 n) :=
  if h : l.length = n then some ⟨l.toArray, h⟩ else none

theorem readBytes_toList {n : Nat} (v : Vector UInt8 n) : readBytes n v.toList = some v := by
  rw [readBytes, dif_pos Vector.length_toList]
  exact congrArg some (Vector.toList_inj.1 rfl)

def readByte : Cbor.Data → UInt8
  | .unsigned n => n.toUInt8
  | _ => 0

/-- The fields of an object as the serializer orders them. -/
def readFields : Cbor.Data → Option SignedObject
  | .map [(_, .bytes id), (_, .bytes author), (_, .unsigned createdAt), (_, .array payload), (_, .bytes signature)] => do
    let id ← readBytes 32 id
    let author ← readBytes 32 author
    let signature ← readBytes 64 signature
    return { id := ⟨id⟩, author := ⟨author⟩, createdAt, payload := payload.map readByte, signature := ⟨signature⟩ }
  | _ => none

def diskEnv : StoreEnv := ⟨tagCrypto, readFields, fun _ => "Io(Error \x7b kind: UnexpectedEof \x7d)", "/var/lib/fortiq"⟩

theorem roundTrips : diskEnv.RoundTrips := by
  intro obj
  have hpayload : (obj.payload.map fun b => Cbor.Data.unsigned b.toUInt64).map readByte = obj.payload := by
    rw [List.map_map]
    exact List.map_id'' (fun b => by simp [readByte]) _
  show readFields obj.serialize = some obj
  rw [SignedObject.serialize, readFields, readBytes_toList, readBytes_toList, readBytes_toList, hpayload]
  rfl

def empty : StoreState := ⟨.empty, [], [], [], []⟩

def first : SignedObject := objectAt alice 1 5

def second : SignedObject := objectAt bob 2 6

/-- Two calls take turns; the first is renamed whole. -/
def whole : List StoreLabel :=
  [.put first "a", .put second "b", .checkExists 0, .checkExists 1, .makeDir 1 none, .makeDir 0 none, .create 0 none,
    .create 1 none, .close 0 first.toCbor.length, .rename 0 none]

/-- The last bytes of the second do not reach the disk, and the process ends after its rename. -/
def torn : List StoreLabel := whole ++ [.close 0 100, .rename 0 none, .crash]

/-- The second is renamed whole too. -/
def both : List StoreLabel := whole ++ [.close 0 second.toCbor.length, .rename 0 none]

/-- After the restart the second is stored again. -/
def again : List StoreLabel := [.put second "c", .checkExists 0]

def storedFirst : StoreState := (storeMachine diskEnv).after empty whole

def storedBoth : StoreState := (storeMachine diskEnv).after empty both

def tornSecond : StoreState := (storeMachine diskEnv).after empty torn

def storedAgain : StoreState := (storeMachine diskEnv).after tornSecond again

theorem stored_spec : (storeMachine diskEnv).Allows empty whole ∧ (storeMachine diskEnv).Allows empty both ∧
    storedFirst.renamed = [(first, first.toCbor.length)] ∧
    storedBoth.renamed = [(second, second.toCbor.length), (first, first.toCbor.length)] := by
  decide +kernel

theorem torn_spec : (storeMachine diskEnv).Allows empty torn ∧ (storeMachine diskEnv).Allows tornSecond again ∧
    tornSecond.tasks = [] ∧ tornSecond.renamed = [(second, 100), (first, first.toCbor.length)] ∧
    storedAgain.renamed = [(second, 100), (first, first.toCbor.length)] := by
  decide +kernel

theorem reachable_empty : (storeMachine diskEnv).Reachable empty := .of_start ⟨rfl, rfl, rfl, rfl, rfl⟩

theorem reachable_whole : (storeMachine diskEnv).Reachable storedFirst := reachable_empty.after whole stored_spec.1

theorem reachable_both : (storeMachine diskEnv).Reachable storedBoth := reachable_empty.after both stored_spec.2.1

theorem reachable_torn : (storeMachine diskEnv).Reachable tornSecond := reachable_empty.after torn torn_spec.1

end DiskSample

end Fortiq
