/-
What the files of the store hold. A file is at the place of an object exactly if it was renamed there, and it holds as
much of the object as was written before; so the store can be loaded after a crash at any moment, unless the last
bytes of some object were lost when its writer was dropped. Without such losses the files are those of the calls made
one after the other, in the order of their renames.
-/
import Fortiq.Engine.Step
import Fortiq.Lib.FirstWins
import Fortiq.Lib.Slots
import Fortiq.Store.Disk

namespace Fortiq

/-! ## Names -/

theorem hexDigit_inj : ∀ m < 16, ∀ n < 16, hexDigit m = hexDigit n → m = n := by decide

theorem hexEncode_injective : Function.Injective hexEncode := by
  intro a b h
  replace h := String.ofList_injective h
  induction a generalizing b with
  | nil =>
    cases b with
    | nil => rfl
    | cons y b => cases h
  | cons x a ih =>
    cases b with
    | nil => cases h
    | cons y b =>
      simp only [List.flatMap_cons, List.cons_append, List.nil_append, List.cons.injEq] at h
      have hx := x.toNat_lt
      have hy := y.toNat_lt
      have hhigh := hexDigit_inj _ (by omega) _ (by omega) h.1
      have hlow := hexDigit_inj _ (by omega) _ (by omega) h.2.1
      have hxy : x = y := by rw [← UInt8.toNat_inj]; omega
      rw [hxy, ih h.2.2]

theorem toHex_injective : Function.Injective ObjectId.toHex := by
  intro a b h
  have hbytes : a.bytes = b.bytes := Vector.toList_inj.1 (hexEncode_injective h)
  cases a
  cases b
  exact congrArg ObjectId.mk hbytes

theorem objectPath_inj {a b : ObjectId} : objectPath a = objectPath b ↔ a = b := by
  refine ⟨fun h => toHex_injective ?_, congrArg objectPath⟩
  have hname : a.toHex ++ ".cbor" = b.toHex ++ ".cbor" := (StorePath.object.inj h).2
  exact String.append_left_inj _ |>.1 hname

theorem tmpPath_inj {a b : String} : tmpPath a = tmpPath b ↔ a = b :=
  ⟨fun h => (String.append_left_inj _).1 (StorePath.tmp.inj h), congrArg tmpPath⟩

theorem toHex_ne_nil (id : ObjectId) : id.toHex.toList ≠ [] := by
  obtain ⟨b, l, hb⟩ : ∃ b l, id.bytes.toList = b :: l := by
    cases hl : id.bytes.toList with
    | nil =>
      have hlen : id.bytes.toList.length = 32 := Vector.length_toList
      rw [hl] at hlen
      cases hlen
    | cons b l => exact ⟨b, l, rfl⟩
  rw [ObjectId.toHex, hb]
  simp [hexEncode]

theorem extension_objectPath (id : ObjectId) : extensionOf (objectPath id).fileName.toList = some "cbor".toList := by
  have hname : (objectPath id).fileName.toList.reverse = 'r' :: 'o' :: 'b' :: 'c' :: '.' :: id.toHex.toList.reverse := by
    show (id.toHex ++ ".cbor").toList.reverse = _
    rw [String.toList_append, List.reverse_append]
    rfl
  have hne : (objectPath id).fileName.toList ≠ ['.', '.'] := fun h => by rw [h] at hname; cases hname
  obtain ⟨c, l, hc⟩ := List.exists_cons_of_ne_nil (List.reverse_ne_nil_iff.2 (toHex_ne_nil id))
  unfold extensionOf
  rw [hname, hc]
  simp [List.takeWhile, List.dropWhile, hne]

/-! ## Decoding -/

theorem SignedObject.sized_serialize {obj : SignedObject} (h : obj.payload.length < 2 ^ 64) : obj.serialize.Sized := by
  have hitems : ∀ l : List UInt8, Cbor.SizedItems (l.map fun b => .unsigned b.toUInt64) := by
    intro l
    induction l with
    | nil => trivial
    | cons b l ih => exact ⟨trivial, ih⟩
  have hid : obj.id.bytes.toList.length = 32 := Vector.length_toList
  have hauthor : obj.author.bytes.toList.length = 32 := Vector.length_toList
  have hsignature : obj.signature.bytes.toList.length = 64 := Vector.length_toList
  refine ⟨by simp, ?_, ?_, ?_, ?_, ?_, trivial, ?_, ⟨?_, hitems _⟩, ?_, ?_, trivial⟩
  · exact (by decide : (utf8 "id").length < 2 ^ 64)
  · show obj.id.bytes.toList.length < 2 ^ 64
    omega
  · exact (by decide : (utf8 "author").length < 2 ^ 64)
  · show obj.author.bytes.toList.length < 2 ^ 64
    omega
  · exact (by decide : (utf8 "created_at").length < 2 ^ 64)
  · exact (by decide : (utf8 "payload").length < 2 ^ 64)
  · rwa [List.length_map]
  · exact (by decide : (utf8 "signature").length < 2 ^ 64)
  · show obj.signature.bytes.toList.length < 2 ^ 64
    omega

section Decoding

variable {env : StoreEnv} {obj : SignedObject}

theorem fromCbor_toCbor (hrt : env.RoundTrips) (h : obj.payload.length < 2 ^ 64) : env.fromCbor obj.toCbor = .ok obj := by
  have hparse := Cbor.parse_encode (SignedObject.sized_serialize h) []
  rw [List.append_nil] at hparse
  rw [StoreEnv.fromCbor, SignedObject.toCbor, hparse, Option.bind_some, hrt obj]

/-- Of an object that is not there to its end, nothing is read. -/
theorem fromCbor_take (h : obj.payload.length < 2 ^ 64) {n : Nat} (hn : n < obj.toCbor.length) :
    ∃ e, env.fromCbor (obj.toCbor.take n) = .error e := by
  have hnone : Cbor.parse (obj.toCbor.take n) = none := by
    cases hp : Cbor.parse (obj.toCbor.take n) with
    | none => rfl
    | some p =>
      -- the whole has the item of the part, and what is missing is left over
      have happ := Cbor.parse_append hp (obj.toCbor.drop n)
      have hwhole := Cbor.parse_encode (SignedObject.sized_serialize h) []
      rw [List.append_nil] at hwhole
      rw [List.take_append_drop, SignedObject.toCbor, hwhole] at happ
      have hrest : p.2 ++ obj.toCbor.drop n = [] := (Prod.mk.inj (Option.some.inj happ)).2.symm
      have hdrop := (List.append_eq_nil_iff.1 hrest).2
      rw [List.drop_eq_nil_iff] at hdrop
      omega
  exact ⟨_, by rw [StoreEnv.fromCbor, hnone]; rfl⟩

end Decoding

/-! ## The invariant -/

namespace StoreState

variable {env : StoreEnv} {s : StoreState} {t : PutTask} {i : Nat}

/-- The last rename to the place of an object. -/
def latest (s : StoreState) (id : ObjectId) : Option (SignedObject × Nat) := s.renamed.find? fun r => r.1.id = id

/-- What the last rename left at a path. -/
def held (s : StoreState) (path : StorePath) : Option (List UInt8) :=
  (s.renamed.find? fun r => objectPath r.1.id = path).map fun r => r.1.toCbor.take r.2

structure Inv (env : StoreEnv) (s : StoreState) : Prop where
  names : (s.tasks.map PutTask.uuid).Nodup
  used : ∀ t ∈ s.tasks, t.uuid ∈ s.uuids
  valid : ∀ t ∈ s.tasks, t.obj.verify env.crypto = .ok () ∧ t.obj.payload.length < 2 ^ 64
  content : ∀ t ∈ s.tasks, ∀ n, t.phase = .writing n ∨ t.phase = .closed n →
    n ≤ t.obj.toCbor.length ∧ s.fs.read (tmpPath t.uuid) = some (t.obj.toCbor.take n)
  files : ∀ path, path.isObject = true → s.fs.read path = s.held path
  renamed : ∀ r ∈ s.renamed, r.1.verify env.crypto = .ok () ∧ r.1.payload.length < 2 ^ 64 ∧ r.2 ≤ r.1.toCbor.length
  returned : ∀ obj id, (obj, .ok id) ∈ s.returned → id = obj.id ∧ s.latest id ≠ none

/-- A task goes on: it has touched its own temporary file only. -/
theorem Inv.advance (h : Inv env s) (ht : s.tasks[i]? = some t) {fs : StoreFiles} {phase : PutPhase}
    (hfs : ∀ path, path ≠ tmpPath t.uuid → fs.read path = s.fs.read path)
    (hphase : ∀ n, phase = .writing n ∨ phase = .closed n →
      n ≤ t.obj.toCbor.length ∧ fs.read (tmpPath t.uuid) = some (t.obj.toCbor.take n)) :
    Inv env ({ s with fs }.setPhase i t phase) := by
  have hmem := List.mem_of_getElem? ht
  have hcases : ∀ x ∈ s.tasks.set i { t with phase }, x = { t with phase } ∨ x ∈ s.tasks ∧ x.uuid ≠ t.uuid :=
    fun x hx => Slots.mem_set_cases h.names ht hx
  refine { names := ?_, used := ?_, valid := ?_, content := ?_, files := ?_, renamed := h.renamed, returned := h.returned }
  · show ((s.tasks.set i { t with phase }).map PutTask.uuid).Nodup
    have hnames : (s.tasks.set i { t with phase }).map PutTask.uuid = s.tasks.map PutTask.uuid := Slots.names_set ht rfl
    rw [hnames]
    exact h.names
  · intro x hx
    obtain rfl | ⟨hx, -⟩ := hcases x hx
    · exact h.used t hmem
    · exact h.used x hx
  · intro x hx
    obtain rfl | ⟨hx, -⟩ := hcases x hx
    · exact h.valid t hmem
    · exact h.valid x hx
  · intro x hx n hn
    obtain rfl | ⟨hx, hne⟩ := hcases x hx
    · exact hphase n hn
    · obtain ⟨hle, hread⟩ := h.content x hx n hn
      exact ⟨hle, (hfs _ fun hp => hne (tmpPath_inj.1 hp)).trans hread⟩
  · intro path hpath
    refine (hfs path ?_).trans (h.files path hpath)
    rintro rfl
    cases hpath

/-- A task ends: what it leaves of its temporary file does not matter. -/
theorem Inv.leave (h : Inv env s) (ht : s.tasks[i]? = some t) {fs : StoreFiles} {result : Result ObjectId}
    (hfs : ∀ path, path ≠ tmpPath t.uuid → fs.read path = s.fs.read path)
    (hresult : ∀ id, result = .ok id → id = t.obj.id ∧ s.latest id ≠ none) :
    Inv env ({ s with fs }.finish i t result) := by
  have hcases : ∀ x ∈ s.tasks.eraseIdx i, x ∈ s.tasks ∧ x.uuid ≠ t.uuid :=
    fun x hx => Slots.mem_eraseIdx_cases h.names ht hx
  refine { names := ?_, used := ?_, valid := ?_, content := ?_, files := ?_, renamed := h.renamed, returned := ?_ }
  · exact h.names.sublist ((List.eraseIdx_sublist s.tasks i).map _)
  · exact fun x hx => h.used x (hcases x hx).1
  · exact fun x hx => h.valid x (hcases x hx).1
  · intro x hx n hn
    obtain ⟨hle, hread⟩ := h.content x (hcases x hx).1 n hn
    exact ⟨hle, (hfs _ fun hp => (hcases x hx).2 (tmpPath_inj.1 hp)).trans hread⟩
  · intro path hpath
    refine (hfs path ?_).trans (h.files path hpath)
    rintro rfl
    cases hpath
  · intro obj id hr
    rcases List.mem_append.1 hr with hr | hr
    · exact h.returned obj id hr
    · obtain ⟨rfl, heq⟩ := Prod.mk.inj (List.mem_singleton.1 hr)
      exact hresult id heq.symm

/-- The file of a task takes its place. -/
theorem Inv.rename (h : Inv env s) (ht : s.tasks[i]? = some t) {n : Nat} (hphase : t.phase = .closed n) :
    Inv env ({ s with fs := s.fs.rename (tmpPath t.uuid) (objectPath t.obj.id),
                      renamed := (t.obj, n) :: s.renamed }.finish i t (.ok t.obj.id)) := by
  have hmem := List.mem_of_getElem? ht
  obtain ⟨hle, hread⟩ := h.content t hmem n (.inr hphase)
  have hcases : ∀ x ∈ s.tasks.eraseIdx i, x ∈ s.tasks ∧ x.uuid ≠ t.uuid :=
    fun x hx => Slots.mem_eraseIdx_cases h.names ht hx
  have hlatest : ∀ id, s.latest id ≠ none →
      ((t.obj, n) :: s.renamed).find? (fun r => r.1.id = id) ≠ none := by
    intro id hid
    rw [List.find?_cons]
    split
    · exact Option.some_ne_none _
    · exact hid
  refine { names := ?_, used := ?_, valid := ?_, content := ?_, files := ?_, renamed := ?_, returned := ?_ }
  · exact h.names.sublist ((List.eraseIdx_sublist s.tasks i).map _)
  · exact fun x hx => h.used x (hcases x hx).1
  · exact fun x hx => h.valid x (hcases x hx).1
  · intro x hx m hm
    obtain ⟨hle', hread'⟩ := h.content x (hcases x hx).1 m hm
    refine ⟨hle', Eq.trans ?_ hread'⟩
    exact FileSystem.read_rename_of_ne (fun hp => (hcases x hx).2 (tmpPath_inj.1 hp)) nofun
  · intro path hpath
    show (s.fs.rename (tmpPath t.uuid) (objectPath t.obj.id)).read path = Option.map _ (List.find? _ ((t.obj, n) :: s.renamed))
    rw [List.find?_cons]
    by_cases hp : objectPath t.obj.id = path
    · subst hp
      rw [FileSystem.read_rename_to hread]
      simp
    · rw [FileSystem.read_rename_of_ne (by rintro rfl; cases hpath) (Ne.symm hp)]
      simp only [hp, decide_false]
      exact h.files path hpath
  · intro r hr
    rcases List.mem_cons.1 hr with rfl | hr
    · exact ⟨(h.valid t hmem).1, (h.valid t hmem).2, hle⟩
    · exact h.renamed r hr
  · intro obj id hr
    rcases List.mem_append.1 hr with hr | hr
    · exact ⟨(h.returned obj id hr).1, hlatest id (h.returned obj id hr).2⟩
    · rw [List.mem_singleton, Prod.mk.injEq, Except.ok.injEq] at hr
      obtain ⟨rfl, rfl⟩ := hr
      refine ⟨rfl, ?_⟩
      show List.find? _ ((t.obj, n) :: s.renamed) ≠ none
      rw [List.find?_cons]
      simp

theorem held_objectPath (s : StoreState) (id : ObjectId) :
    s.held (objectPath id) = (s.latest id).map fun r => r.1.toCbor.take r.2 := by
  simp only [held, latest, objectPath_inj]

theorem append_content {fs : StoreFiles} {p : StorePath} {bytes : List UInt8} {n count : Nat}
    (h : fs.read p = some (bytes.take n)) :
    (fs.append p ((bytes.drop n).take count)).read p = some (bytes.take (n + count)) := by
  rw [FileSystem.read_append_self, h, Option.map_some, List.take_add]

theorem Inv.stepTask (h : Inv env s) (ht : s.tasks[i]? = some t) {l : StoreLabel} (hl : takes t l = true) :
    Inv env (s.stepTask env i t l) := by
  have hmem := List.mem_of_getElem? ht
  cases l with
  | put obj uuid => cases hl
  | crash => cases hl
  | checkExists j =>
    show Inv env (if s.fs.read (objectPath t.obj.id) ≠ none then s.finish i t (.ok t.obj.id) else s.setPhase i t .makingDir)
    split
    · rename_i hexists
      refine h.leave ht (fun _ _ => rfl) ?_
      rintro id ⟨⟩
      refine ⟨rfl, fun hnone => hexists ?_⟩
      rw [h.files _ rfl, held_objectPath, hnone, Option.map_none]
    · exact h.advance ht (fun _ _ => rfl) (by rintro n (hn | hn) <;> cases hn)
  | makeDir j fails =>
    cases fails with
    | some text => exact h.leave ht (fun _ _ => rfl) nofun
    | none => exact h.advance ht (fun _ _ => rfl) (by rintro n (hn | hn) <;> cases hn)
  | create j fails =>
    cases fails with
    | some text => exact h.leave ht (fun _ _ => rfl) nofun
    | none =>
      refine h.advance ht (fun path hpath => FileSystem.read_create_of_ne hpath) ?_
      rintro n (hn | hn)
      · cases hn
        exact ⟨Nat.zero_le _, FileSystem.read_create_self⟩
      · cases hn
  | write j count =>
    simp only [takes] at hl
    cases hphase : t.phase with
    | writing n =>
      rw [hphase, decide_eq_true_eq] at hl
      simp only [StoreState.stepTask, hphase]
      refine h.advance ht (fun path hpath => FileSystem.read_append_of_ne hpath) ?_
      rintro m (hm | hm)
      · cases hm
        exact ⟨hl.2, append_content (h.content t hmem n (.inl hphase)).2⟩
      · cases hm
    | checking | makingDir | creating | closed n => rw [hphase] at hl; cases hl
  | writeFails j text count =>
    simp only [takes] at hl
    cases hphase : t.phase with
    | writing n =>
      simp only [StoreState.stepTask, hphase]
      exact h.leave ht (fun path hpath => FileSystem.read_append_of_ne hpath) nofun
    | checking | makingDir | creating | closed n => rw [hphase] at hl; cases hl
  | close j count =>
    simp only [takes] at hl
    cases hphase : t.phase with
    | writing n =>
      rw [hphase, decide_eq_true_eq] at hl
      simp only [StoreState.stepTask, hphase]
      refine h.advance ht (fun path hpath => FileSystem.read_append_of_ne hpath) ?_
      rintro m (hm | hm)
      · cases hm
      · cases hm
        exact ⟨hl.1, append_content (h.content t hmem n (.inl hphase)).2⟩
    | checking | makingDir | creating | closed n => rw [hphase] at hl; cases hl
  | rename j fails =>
    cases fails with
    | some text => exact h.leave ht (fun _ _ => rfl) nofun
    | none =>
      simp only [takes] at hl
      cases hphase : t.phase with
      | closed n =>
        simp only [StoreState.stepTask, hphase]
        exact h.rename ht hphase
      | checking | makingDir | creating | writing n => rw [hphase] at hl; cases hl

variable (env) in
/-- A step is a new call, the end of the process or a step of a task in the phase for it. -/
theorem step_cases {l : StoreLabel} (hl : s.enabled l = true) :
    (∃ obj uuid, l = .put obj uuid ∧ uuid ∉ s.uuids ∧ obj.payload.length < 2 ^ 64) ∨ l = .crash ∨
      ∃ i t, s.tasks[i]? = some t ∧ takes t l = true ∧ s.step env l = s.stepTask env i t l := by
  have htask : ∀ i : Nat, (s.tasks[i]?.any fun t => takes t l) = true → ∃ t, s.tasks[i]? = some t ∧ takes t l = true := by
    intro i hi
    cases ht : s.tasks[i]? with
    | none => rw [ht] at hi; cases hi
    | some t => rw [ht] at hi; exact ⟨t, rfl, hi⟩
  cases l with
  | put obj uuid => exact .inl ⟨obj, uuid, rfl, of_decide_eq_true hl⟩
  | crash => exact .inr (.inl rfl)
  | checkExists i | makeDir i _ | create i _ | write i _ | writeFails i _ _ | close i _ | rename i _ =>
    obtain ⟨t, ht, htakes⟩ := htask i hl
    exact .inr (.inr ⟨i, t, ht, htakes, by simp only [StoreState.step, taskOf, ht]⟩)

theorem step_put_error {obj : SignedObject} {e : Error} (h : obj.verify env.crypto = .error e) (uuid : String) :
    s.step env (.put obj uuid) =
      { s with returned := s.returned ++ [(obj, .error (.context "cannot store invalid SignedObject" e))] } := by
  simp only [StoreState.step, h, Result.context]

theorem step_put_ok {obj : SignedObject} (h : obj.verify env.crypto = .ok ()) (uuid : String) :
    s.step env (.put obj uuid) = { s with tasks := s.tasks ++ [⟨obj, uuid, .checking⟩], uuids := uuid :: s.uuids } := by
  simp only [StoreState.step, h, Result.context]

theorem Inv.put (h : Inv env s) {obj : SignedObject} {uuid : String} (hnew : uuid ∉ s.uuids)
    (hlen : obj.payload.length < 2 ^ 64) : Inv env (s.step env (.put obj uuid)) := by
  cases hv : obj.verify env.crypto with
  | error e =>
    rw [step_put_error hv]
    refine { h with returned := ?_ }
    intro o id hr
    rcases List.mem_append.1 hr with hr | hr
    · exact h.returned o id hr
    · cases (Prod.mk.inj (List.mem_singleton.1 hr)).2
  | ok u =>
    rw [step_put_ok hv]
    have hcases : ∀ x ∈ s.tasks ++ [⟨obj, uuid, .checking⟩], x ∈ s.tasks ∨ x = ⟨obj, uuid, .checking⟩ := fun x hx =>
      (List.mem_append.1 hx).imp_right List.mem_singleton.1
    refine { h with names := ?_, used := ?_, valid := ?_, content := ?_ }
    · show ((s.tasks ++ [(⟨obj, uuid, .checking⟩ : PutTask)]).map PutTask.uuid).Nodup
      rw [List.map_append, List.map_singleton]
      refine List.nodup_append.2 ⟨h.names, List.nodup_singleton _, ?_⟩
      rintro a ha b hb rfl
      obtain ⟨x, hx, rfl⟩ := List.mem_map.1 ha
      have hxu : x.uuid = uuid := List.mem_singleton.1 hb
      exact hnew (hxu ▸ h.used x hx)
    · intro x hx
      obtain hx | rfl := hcases x hx
      · exact List.mem_cons_of_mem _ (h.used x hx)
      · exact List.mem_cons_self
    · intro x hx
      obtain hx | rfl := hcases x hx
      · exact h.valid x hx
      · exact ⟨hv, hlen⟩
    · intro x hx n hn
      obtain hx | rfl := hcases x hx
      · exact h.content x hx n hn
      · rcases hn with hn | hn <;> cases hn

theorem Inv.step (h : Inv env s) {l : StoreLabel} (hl : s.enabled l = true) : Inv env (s.step env l) := by
  obtain ⟨obj, uuid, rfl, hnew, hlen⟩ | rfl | ⟨i, t, ht, htakes, heq⟩ := step_cases env hl
  · exact h.put hnew hlen
  · exact { h with names := List.nodup_nil, used := nofun, valid := nofun, content := nofun }
  · rw [heq]
    exact h.stepTask ht htakes

theorem Inv.reachable (hs : (storeMachine env).Reachable s) : Inv env s := by
  refine hs.invariant ?_ fun s l hl (h : Inv env s) => h.step hl
  rintro s ⟨hfs, htasks, huuids, hrenamed, hreturned⟩
  constructor <;> simp [hfs, htasks, hrenamed, hreturned, held, FileSystem.empty]

/-! ## Reading -/

/-- No rename that still stands was of a part of its object. -/
def Whole (s : StoreState) : Prop := ∀ id r, s.latest id = some r → r.2 = r.1.toCbor.length

theorem latest_some {id : ObjectId} {r : SignedObject × Nat} (h : s.latest id = some r) : r ∈ s.renamed ∧ r.1.id = id := by
  have hid := List.find?_some h
  exact ⟨List.mem_of_find?_eq_some h, of_decide_eq_true hid⟩

theorem Inv.read_objectPath (h : Inv env s) (id : ObjectId) :
    s.fs.read (objectPath id) = (s.latest id).map fun r => r.1.toCbor.take r.2 := by
  rw [h.files _ rfl, held_objectPath]

/-- The files in the shards are those of renamed objects. -/
theorem Inv.object_file (h : Inv env s) {path : StorePath} (hpath : path.isObject = true) (hread : s.fs.read path ≠ none) :
    ∃ r, path = objectPath r.1.id ∧ s.latest r.1.id = some r := by
  rw [h.files path hpath] at hread
  cases hfind : s.renamed.find? fun r => objectPath r.1.id = path with
  | none => rw [held, hfind] at hread; exact absurd rfl hread
  | some r =>
    have hp := List.find?_some hfind
    obtain rfl := of_decide_eq_true hp
    refine ⟨r, rfl, ?_⟩
    simpa only [latest, objectPath_inj] using hfind

/-- A file decodes exactly if it is whole, and then to the object renamed there. -/
theorem Inv.decode (h : Inv env s) (hrt : env.RoundTrips) {id : ObjectId} {r : SignedObject × Nat}
    (hr : s.latest id = some r) :
    (r.2 = r.1.toCbor.length ∧ env.fromCbor (r.1.toCbor.take r.2) = .ok r.1) ∨
      (r.2 ≠ r.1.toCbor.length ∧ ∃ e, env.fromCbor (r.1.toCbor.take r.2) = .error e) := by
  obtain ⟨-, hsize, hle⟩ := h.renamed r (latest_some hr).1
  rcases hle.eq_or_lt with heq | hlt
  · refine .inl ⟨heq, ?_⟩
    rw [heq, List.take_length]
    exact fromCbor_toCbor hrt hsize
  · exact .inr ⟨hlt.ne, fromCbor_take hsize hlt⟩

theorem Inv.get_whole (h : Inv env s) (hrt : env.RoundTrips) {id : ObjectId} {r : SignedObject × Nat}
    (hr : s.latest id = some r) (hn : r.2 = r.1.toCbor.length) : getObjectFile env s.fs id = .ok (some r.1) := by
  obtain ⟨-, hdec⟩ | ⟨hne, -⟩ := h.decode hrt hr
  · have hid := (latest_some hr).2
    have hv := (h.renamed r (latest_some hr).1).1
    rw [getObjectFile, h.read_objectPath, hr, Option.map_some]
    simp only [hdec, Result.context_ok, Result.ok_bind, hid, ne_eq, not_true_eq_false, if_false, hv]
    rfl
  · exact absurd hn hne

/-- One file of a load: its object in front of the others, or the end of the load. -/
theorem Inv.load_cons (h : Inv env s) (hrt : env.RoundTrips) {r : SignedObject × Nat} (hr : s.latest r.1.id = some r)
    (walk : List StorePath) :
    (r.2 = r.1.toCbor.length ∧ loadAllObjectFiles env s.fs (objectPath r.1.id :: walk) =
        (loadAllObjectFiles env s.fs walk).map (r.1 :: ·)) ∨
      (r.2 ≠ r.1.toCbor.length ∧ ∃ e, loadAllObjectFiles env s.fs (objectPath r.1.id :: walk) = .error e) := by
  have hv := (h.renamed r (latest_some hr).1).1
  rw [loadAllObjectFiles.eq_2, if_neg (not_not.2 (extension_objectPath r.1.id)), h.read_objectPath, hr, Option.map_some]
  refine (h.decode hrt hr).imp (fun ⟨hn, hdec⟩ => ⟨hn, ?_⟩) fun ⟨hn, e, hdec⟩ => ⟨hn, ?_⟩
  · simp only [hdec, hv, Result.context_ok, Result.ok_bind]
    cases loadAllObjectFiles env s.fs walk <;> rfl
  · simp only [hdec, Result.context_error, Result.error_bind]
    exact ⟨_, rfl⟩

/-- A load of some of the files: it fails if one of them is torn, and gives their objects otherwise. -/
theorem Inv.load_cases (h : Inv env s) (hrt : env.RoundTrips) {walk : List StorePath}
    (hwalk : ∀ path ∈ walk, path.isObject = true ∧ s.fs.read path ≠ none) :
    (∃ objs, loadAllObjectFiles env s.fs walk = .ok objs ∧ walk = objs.map (fun o => objectPath o.id) ∧
        ∀ o ∈ objs, s.latest o.id = some (o, o.toCbor.length)) ∨
      ((∃ e, loadAllObjectFiles env s.fs walk = .error e) ∧ ¬ s.Whole) := by
  induction walk with
  | nil => exact .inl ⟨[], rfl, rfl, nofun⟩
  | cons path walk ih =>
    obtain ⟨hpath, hrest⟩ := List.forall_mem_cons.1 hwalk
    obtain ⟨r, rfl, hr⟩ := h.object_file hpath.1 hpath.2
    obtain ⟨hn, heq⟩ | ⟨hn, e, heq⟩ := h.load_cons hrt hr walk
    · obtain ⟨objs, hload, rfl, hobjs⟩ | ⟨⟨e, hload⟩, htorn⟩ := ih hrest
      · refine .inl ⟨r.1 :: objs, by rw [heq, hload]; rfl, rfl, ?_⟩
        exact List.forall_mem_cons.2 ⟨by rw [hr, ← hn], hobjs⟩
      · exact .inr ⟨⟨e, by rw [heq, hload]; rfl⟩, htorn⟩
    · exact .inr ⟨⟨e, heq⟩, fun hwhole => hn (hwhole _ r hr)⟩

/-- A load of the whole store. -/
theorem Inv.load_spec (h : Inv env s) (hrt : env.RoundTrips) {walk : List StorePath} (hw : Walks s.fs walk) :
    (s.Whole ∧ ∃ objs, loadAllObjectFiles env s.fs walk = .ok objs ∧ (objs.map SignedObject.id).Nodup ∧
        ∀ id, (objs.find? fun o => o.id = id) = (s.latest id).map Prod.fst) ∨
      (¬ s.Whole ∧ ∃ e, loadAllObjectFiles env s.fs walk = .error e) := by
  obtain ⟨objs, hload, hpaths, hobjs⟩ | ⟨herror, htorn⟩ := h.load_cases hrt fun path hp => (hw.mem_iff path).1 hp
  · -- each renamed object has its file among those of the walk
    have hfound : ∀ id r, s.latest id = some r → r.1 ∈ objs ∧ r.2 = r.1.toCbor.length := by
      intro id r hr
      obtain rfl := (latest_some hr).2
      have hmem : objectPath r.1.id ∈ walk :=
        (hw.mem_iff _).2 ⟨rfl, by rw [h.read_objectPath, hr]; exact Option.some_ne_none _⟩
      rw [hpaths] at hmem
      obtain ⟨o, ho, hid⟩ := List.mem_map.1 hmem
      have heq := hobjs o ho
      rw [objectPath_inj.1 hid, hr, Option.some.injEq] at heq
      rw [heq]
      exact ⟨ho, rfl⟩
    have hnodup : (objs.map SignedObject.id).Nodup := by
      refine List.Nodup.of_map objectPath ?_
      rw [List.map_map]
      exact hpaths ▸ hw.nodup
    refine .inl ⟨fun id r hr => (hfound id r hr).2, objs, hload, hnodup, fun id => ?_⟩
    cases hfind : objs.find? fun o => o.id = id with
    | none =>
      cases hr : s.latest id with
      | none => rfl
      | some r =>
        have hne := List.find?_eq_none.1 hfind r.1 (hfound id r hr).1
        exact absurd (decide_eq_true (latest_some hr).2) hne
    | some o =>
      have hid := List.find?_some hfind
      rw [← of_decide_eq_true hid, hobjs o (List.mem_of_find?_eq_some hfind)]
      rfl
  · exact .inr ⟨htorn, herror⟩

/-- After any calls, failures and crashes the store loads exactly if the file last renamed to each place has all its
bytes; and what is loaded are the objects last renamed to each place, once each. -/
theorem load_iff_whole (hrt : env.RoundTrips) (hs : (storeMachine env).Reachable s) {walk : List StorePath}
    (hw : Walks s.fs walk) :
    ((∃ objs, loadAllObjectFiles env s.fs walk = .ok objs) ↔ s.Whole) ∧
      ∀ objs, loadAllObjectFiles env s.fs walk = .ok objs → (objs.map SignedObject.id).Nodup ∧
        ∀ id, (objs.find? fun o => o.id = id) = (s.latest id).map Prod.fst := by
  obtain ⟨hwhole, objs, hload, hobjs⟩ | ⟨htorn, e, hload⟩ := (Inv.reachable hs).load_spec hrt hw
  · refine ⟨iff_of_true ⟨objs, hload⟩ hwhole, fun objs' hload' => ?_⟩
    obtain rfl := Except.ok.inj (hload.symm.trans hload')
    exact hobjs
  · have hnot : ∀ objs, loadAllObjectFiles env s.fs walk ≠ .ok objs := fun objs hok => nomatch hload.symm.trans hok
    exact ⟨iff_of_false (fun ⟨objs, hok⟩ => hnot objs hok) htorn, fun objs hok => absurd hok (hnot objs)⟩

theorem latest_ne_none {id : ObjectId} : s.latest id ≠ none ↔ id ∈ (s.renamed.map Prod.fst).map SignedObject.id := by
  simp [latest]

theorem Inv.walks (h : Inv env s) {objs : List SignedObject} (hn : (objs.map SignedObject.id).Nodup)
    (hobjs : ∀ id, id ∈ objs.map SignedObject.id ↔ s.latest id ≠ none) :
    Walks s.fs (objs.map fun o => objectPath o.id) := by
  refine ⟨?_, fun path => ⟨fun hp => ?_, fun ⟨hpath, hread⟩ => ?_⟩⟩
  · have hpaths := hn.map (f := objectPath) fun a b => objectPath_inj.1
    rwa [List.map_map] at hpaths
  · obtain ⟨o, ho, rfl⟩ := List.mem_map.1 hp
    refine ⟨rfl, ?_⟩
    rw [h.read_objectPath, ne_eq, Option.map_eq_none_iff]
    exact (hobjs o.id).1 (List.mem_map_of_mem ho)
  · obtain ⟨r, rfl, hr⟩ := h.object_file hpath hread
    obtain ⟨o, ho, hid⟩ := List.mem_map.1 ((hobjs r.1.id).2 (by rw [hr]; exact Option.some_ne_none _))
    exact List.mem_map.2 ⟨o, ho, congrArg objectPath hid⟩

open DiskSample in
/-- With the first object in place and the second half written, a restart loads the first. -/
theorem load_iff_whole_first : ∃ objs,
    loadAllObjectFiles diskEnv storedFirst.fs [objectPath first.id] = .ok objs ∧
      (objs.find? fun o => o.id = first.id) = some first := by
  obtain ⟨-, -, hrenamed, -⟩ := stored_spec
  have hw : Walks storedFirst.fs ([first].map fun o => objectPath o.id) := by
    refine (Inv.reachable reachable_whole).walks (List.nodup_singleton _) fun id => ?_
    rw [latest_ne_none, hrenamed]
    rfl
  have hwhole : storedFirst.Whole := by
    intro id r hr
    have hmem := (latest_some hr).1
    rw [hrenamed, List.mem_singleton] at hmem
    rw [hmem]
  obtain ⟨hiff, hobjs⟩ := load_iff_whole roundTrips reachable_whole hw
  obtain ⟨objs, hload⟩ := hiff.2 hwhole
  refine ⟨objs, hload, ?_⟩
  rw [(hobjs objs hload).2 first.id, latest, hrenamed, List.find?_cons_of_pos (by simp)]
  rfl

/-! ## A torn file stays -/

variable (env s i) in
/-- What a task's step does: it goes on, returns or renames its file. -/
theorem stepTask_cases {l : StoreLabel} (hl : takes t l = true) :
    (∃ fs phase, s.stepTask env i t l = { s with fs }.setPhase i t phase) ∨
      (∃ fs result, s.stepTask env i t l = { s with fs }.finish i t result) ∨
      ∃ fs n, t.phase = .closed n ∧
        s.stepTask env i t l = { s with fs, renamed := (t.obj, n) :: s.renamed }.finish i t (.ok t.obj.id) := by
  cases l with
  | put obj uuid => cases hl
  | crash => cases hl
  | checkExists j =>
    simp only [StoreState.stepTask]
    split
    · exact .inr (.inl ⟨s.fs, _, rfl⟩)
    · exact .inl ⟨s.fs, _, rfl⟩
  | makeDir j fails =>
    cases fails with
    | some text => exact .inr (.inl ⟨s.fs, _, rfl⟩)
    | none => exact .inl ⟨s.fs, _, rfl⟩
  | create j fails =>
    cases fails with
    | some text => exact .inr (.inl ⟨s.fs, _, rfl⟩)
    | none => exact .inl ⟨_, _, rfl⟩
  | rename j fails =>
    cases fails with
    | some text => exact .inr (.inl ⟨s.fs, _, rfl⟩)
    | none =>
      simp only [takes] at hl
      cases hphase : t.phase with
      | closed n => exact .inr (.inr ⟨_, n, rfl, by simp only [StoreState.stepTask, hphase]; rfl⟩)
      | checking | makingDir | creating | writing n => rw [hphase] at hl; cases hl
  | write j count | close j count =>
    simp only [takes] at hl
    cases hphase : t.phase with
    | writing n => exact .inl ⟨_, _, by simp only [StoreState.stepTask, hphase]; rfl⟩
    | checking | makingDir | creating | closed n => rw [hphase] at hl; cases hl
  | writeFails j text count =>
    simp only [takes] at hl
    cases hphase : t.phase with
    | writing n => exact .inr (.inl ⟨_, _, by simp only [StoreState.stepTask, hphase]; rfl⟩)
    | checking | makingDir | creating | closed n => rw [hphase] at hl; cases hl

/-- The file of an id is there to stay: no call is past asking whether it exists, and calls since then were told
that the object is stored. -/
structure Settled (crypto : Crypto) (id : ObjectId) (r : SignedObject × Nat)
    (before : List (SignedObject × Result ObjectId)) (s : StoreState) : Prop where
  latest : s.latest id = some r
  idle : ∀ t ∈ s.tasks, t.obj.id = id → t.phase = .checking
  answers : ∃ l, s.returned = before ++ l ∧ ∀ p ∈ l, p.1.id = id → p.2 = .ok id ∨ p.1.verify crypto ≠ .ok ()

section Settled

variable {id : ObjectId} {r : SignedObject × Nat} {before : List (SignedObject × Result ObjectId)}

theorem Settled.answered (hset : Settled env.crypto id r before s) {obj : SignedObject} {result : Result ObjectId}
    (hresult : obj.id = id → result = .ok id ∨ obj.verify env.crypto ≠ .ok ()) :
    ∃ l, s.returned ++ [(obj, result)] = before ++ l ∧
      ∀ p ∈ l, p.1.id = id → p.2 = .ok id ∨ p.1.verify env.crypto ≠ .ok () := by
  obtain ⟨l, hl, hanswers⟩ := hset.answers
  refine ⟨l ++ [(obj, result)], by rw [hl, List.append_assoc], fun p hp => ?_⟩
  rcases List.mem_append.1 hp with hp | hp
  · exact hanswers p hp
  · rw [List.mem_singleton.1 hp]
    exact hresult

theorem Settled.finish (hset : Settled env.crypto id r before s) {fs : StoreFiles}
    {renamed : List (SignedObject × Nat)} (hlatest : renamed.find? (fun r => r.1.id = id) = some r)
    {result : Result ObjectId} (hresult : t.obj.id = id → result = .ok id) :
    Settled env.crypto id r before ({ s with fs, renamed }.finish i t result) := by
  exact ⟨hlatest, fun x hx => hset.idle x (List.mem_of_mem_eraseIdx hx), hset.answered fun hid => .inl (hresult hid)⟩

/-- A call for the id that asks finds the file. -/
theorem Settled.same (hset : Settled env.crypto id r before s) (h : Inv env s) (ht : s.tasks[i]? = some t)
    (hid : t.obj.id = id) {l : StoreLabel} (hl : takes t l = true) :
    Settled env.crypto id r before (s.stepTask env i t l) := by
  have hphase := hset.idle t (List.mem_of_getElem? ht) hid
  cases l with
  | checkExists j =>
    have hread : s.fs.read (objectPath t.obj.id) ≠ none := by
      rw [h.read_objectPath, hid, hset.latest]
      exact Option.some_ne_none _
    simp only [StoreState.stepTask, if_pos hread]
    exact hset.finish hset.latest fun _ => by rw [hid]
  | put _ _ | crash => cases hl
  | makeDir _ _ | create _ _ | write _ _ | writeFails _ _ _ | close _ _ | rename _ _ =>
    simp [takes, hphase] at hl

/-- A call for another id leaves the file alone. -/
theorem Settled.other (hset : Settled env.crypto id r before s) (hid : t.obj.id ≠ id) {l : StoreLabel}
    (hl : takes t l = true) : Settled env.crypto id r before (s.stepTask env i t l) := by
  obtain ⟨fs, phase, heq⟩ | ⟨fs, result, heq⟩ | ⟨fs, n, -, heq⟩ := stepTask_cases env s i hl
  · rw [heq]
    refine ⟨hset.latest, fun x hx hxid => ?_, hset.answers⟩
    obtain hx | rfl := List.mem_or_eq_of_mem_set hx
    · exact hset.idle x hx hxid
    · exact absurd hxid hid
  · rw [heq]
    exact hset.finish hset.latest fun h => absurd h hid
  · rw [heq]
    refine hset.finish ?_ fun h => absurd h hid
    rw [List.find?_cons_of_neg (by simpa using hid)]
    exact hset.latest

theorem Settled.step (hset : Settled env.crypto id r before s) (h : Inv env s) {l : StoreLabel}
    (hl : s.enabled l = true) : Settled env.crypto id r before (s.step env l) := by
  obtain ⟨obj, uuid, rfl, -⟩ | rfl | ⟨i, t, ht, htakes, heq⟩ := step_cases env hl
  · cases hv : obj.verify env.crypto with
    | error e =>
      rw [step_put_error hv]
      exact ⟨hset.latest, hset.idle, hset.answered fun _ => .inr (by rw [hv]; nofun)⟩
    | ok u =>
      rw [step_put_ok hv]
      refine ⟨hset.latest, fun x hx hxid => ?_, hset.answers⟩
      rcases List.mem_append.1 hx with hx | hx
      · exact hset.idle x hx hxid
      · rw [List.mem_singleton.1 hx]
  · exact ⟨hset.latest, nofun, hset.answers⟩
  · rw [heq]
    by_cases hid : t.obj.id = id
    · exact hset.same h ht hid htakes
    · exact hset.other hid htakes

end Settled

/-- A torn file is never written again. Once it is in its place and no other call for its id is past its look at the file
(as after a restart), every later load fails, the object is never read, and yet each call that stores it again returns its id. -/
theorem torn_forever (hrt : env.RoundTrips) (hs : (storeMachine env).Reachable s) {id : ObjectId}
    {r : SignedObject × Nat} (hr : s.latest id = some r) (htorn : r.2 < r.1.toCbor.length)
    (hidle : ∀ t ∈ s.tasks, t.obj.id = id → t.phase = .checking) {s' : StoreState} (hrun : (storeMachine env).Run s s') :
    (∃ e, getObjectFile env s'.fs id = .error e) ∧
      (∀ walk, Walks s'.fs walk → ∃ e, loadAllObjectFiles env s'.fs walk = .error e) ∧
      ∃ l, s'.returned = s.returned ++ l ∧ ∀ p ∈ l, p.1.id = id → p.2 = .ok id ∨ p.1.verify env.crypto ≠ .ok () := by
  have hstart : Inv env s ∧ Settled env.crypto id r s.returned s :=
    ⟨Inv.reachable hs, hr, hidle, [], (List.append_nil _).symm, nofun⟩
  obtain ⟨h, hset⟩ := hrun.keeps (I := fun s' => Inv env s' ∧ Settled env.crypto id r s.returned s')
    (fun s' l hl hI => ⟨hI.1.step hl, hI.2.step hI.1 hl⟩) hstart
  refine ⟨?_, fun walk hw => ?_, hset.answers⟩
  · obtain ⟨hn, -⟩ | ⟨-, e, hdec⟩ := h.decode hrt hset.latest
    · omega
    · rw [getObjectFile, h.read_objectPath, hset.latest, Option.map_some]
      simp only [hdec, Result.context_error, Result.error_bind]
      exact ⟨_, rfl⟩
  · obtain ⟨hwhole, -⟩ | ⟨-, herror⟩ := h.load_spec hrt hw
    · have := hwhole id r hset.latest
      omega
    · exact herror

open DiskSample in
/-- The second object lost its last bytes. Storing it again returns its id, and still it is not read and the store does
not load. -/
theorem torn_forever_second :
    storedAgain.returned = tornSecond.returned ++ [(second, .ok second.id)] ∧
      (∃ e, getObjectFile diskEnv storedAgain.fs second.id = .error e) ∧
      ∃ e, loadAllObjectFiles diskEnv storedAgain.fs [objectPath second.id, objectPath first.id] = .error e := by
  obtain ⟨-, hallows, htasks, hrenamed, hrenamedAgain⟩ := torn_spec
  have hlt : (second, 100).2 < second.toCbor.length := by decide +kernel
  have hlatest : tornSecond.latest second.id = some (second, 100) := by
    rw [latest, hrenamed]
    decide +kernel
  have hidle : ∀ t ∈ tornSecond.tasks, t.obj.id = second.id → t.phase = .checking := by
    rw [htasks]
    nofun
  have hreach : (storeMachine diskEnv).Reachable storedAgain := reachable_torn.after again hallows
  have hw : Walks storedAgain.fs ([second, first].map fun o => objectPath o.id) := by
    refine (Inv.reachable hreach).walks (by decide +kernel) fun id => ?_
    rw [latest_ne_none, hrenamedAgain]
    rfl
  have hrun : (storeMachine diskEnv).Run tornSecond storedAgain := Machine.Run.after again .refl hallows
  obtain ⟨hget, hload, -⟩ := torn_forever roundTrips reachable_torn hlatest hlt hidle hrun
  exact ⟨by decide +kernel, hget, hload _ hw⟩

/-! ## Calls one after the other -/

/-- The store after the calls that renamed a file, one after the other in the order of their renames. -/
def sequential (crypto : Crypto) : List (SignedObject × Nat) → FsObjectStore
  | [] => .empty
  | r :: renamed => ((sequential crypto renamed).put crypto (fun _ => none) r.1).2

/-- Objects with one id are one object. The id leaves out the signature, so this does not follow from the ids. -/
def OnePerId (l : List SignedObject) : Prop := ∀ a ∈ l, ∀ b ∈ l, a.id = b.id → a = b

theorem sequential_find {crypto : Crypto} {renamed : List (SignedObject × Nat)}
    (hvalid : ∀ r ∈ renamed, r.1.verify crypto = .ok ()) (hone : OnePerId (renamed.map Prod.fst)) (id : ObjectId) :
    (sequential crypto renamed).objects.find? (fun o => o.id = id) = (renamed.find? fun r => r.1.id = id).map Prod.fst := by
  induction renamed with
  | nil => rfl
  | cons r renamed ih =>
    obtain ⟨hv, hvalid⟩ := List.forall_mem_cons.1 hvalid
    have ih := ih hvalid fun a ha b hb => hone a (List.mem_cons_of_mem _ ha) b (List.mem_cons_of_mem _ hb)
    rw [List.find?_cons]
    obtain ⟨hne, -⟩ | ⟨hfails, -⟩ | ⟨-, hhas, heq⟩ | ⟨-, hnew, -, store', heq, hobjs⟩ :=
      FsObjectStore.put_cases crypto (fun _ => none) (sequential crypto renamed) r.1
    · exact absurd hv hne
    · cases hfails.2.2
    · -- the file was there: another call renamed the same object before
      rw [sequential, heq, ih]
      by_cases hid : r.1.id = id
      · obtain ⟨o, ho, hoid⟩ := FsObjectStore.has_iff.1 hhas
        cases hfind : renamed.find? fun r => r.1.id = id with
        | none =>
          rw [hfind] at ih
          exact absurd (decide_eq_true (hoid.trans hid)) (List.find?_eq_none.1 ih o ho)
        | some r' =>
          have hid' := List.find?_some hfind
          have hmem := List.mem_map_of_mem (f := Prod.fst) (List.mem_of_find?_eq_some hfind)
          have hsame := hone r'.1 (List.mem_cons_of_mem _ hmem) r.1 List.mem_cons_self
            ((of_decide_eq_true hid').trans hid.symm)
          simp [hid, hsame]
      · simp [hid]
    · rw [sequential, heq, hobjs, List.find?_append, ih]
      by_cases hid : r.1.id = id
      · have hnone : renamed.find? (fun r => r.1.id = id) = none := by
          cases hfind : renamed.find? fun r => r.1.id = id with
          | none => rfl
          | some r' =>
            rw [hfind, Option.map_some] at ih
            have hid' := List.find?_some ih
            have hhas := FsObjectStore.has_iff.2
              ⟨r'.1, List.mem_of_find?_eq_some ih, (of_decide_eq_true hid').trans hid.symm⟩
            rw [hnew] at hhas
            cases hhas
        simp [hid, hnone]
      · simp [hid]

theorem Inv.get_sequential (h : Inv env s) (hrt : env.RoundTrips) (hwhole : s.Whole)
    (hone : OnePerId (s.renamed.map Prod.fst)) (id : ObjectId) :
    getObjectFile env s.fs id = (sequential env.crypto s.renamed).get env.crypto (fun _ => none) id := by
  have hfind := sequential_find (fun r hr => (h.renamed r hr).1) hone id
  cases hr : s.latest id with
  | none =>
    rw [latest] at hr
    rw [hr] at hfind
    rw [FsObjectStore.get, hfind, getObjectFile, h.read_objectPath, latest, hr]
    rfl
  | some r =>
    rw [h.get_whole hrt hr (hwhole id r hr)]
    have hv := (h.renamed r (latest_some hr).1).1
    rw [latest] at hr
    rw [hr] at hfind
    simp only [FsObjectStore.get, hfind, Option.map_some, hv, Result.context_ok]

/-- The files are those of the calls made one after the other, in the order of their renames, as long as none is torn:
each object is read as from that store, a restart loads the objects of that store, and a call that has returned an id
has its object there. -/
theorem refines_sequential (hrt : env.RoundTrips) (hs : (storeMachine env).Reachable s) (hwhole : s.Whole)
    (hone : OnePerId (s.renamed.map Prod.fst)) :
    (∀ id, getObjectFile env s.fs id = (sequential env.crypto s.renamed).get env.crypto (fun _ => none) id) ∧
      (∀ walk, Walks s.fs walk → ∃ objs, loadAllObjectFiles env s.fs walk = .ok objs ∧
        objs.Perm (sequential env.crypto s.renamed).objects) ∧
      ∀ obj id, (obj, .ok id) ∈ s.returned → id = obj.id ∧ (sequential env.crypto s.renamed).has id = true := by
  have h := Inv.reachable hs
  have hfind := sequential_find (fun r hr => (h.renamed r hr).1) hone
  refine ⟨h.get_sequential hrt hwhole hone, fun walk hw => ?_, fun obj id hr => ?_⟩
  · obtain ⟨-, objs, hload, hnodup, hobjs⟩ | ⟨htorn, -⟩ := h.load_spec hrt hw
    swap
    · exact absurd hwhole htorn
    refine ⟨objs, hload, ?_⟩
    rw [List.perm_ext_iff_of_nodup (List.Nodup.of_map _ hnodup) (List.Nodup.of_map _ (FsObjectStore.nodup _))]
    intro o
    rw [FirstWins.mem_iff_find hnodup, FirstWins.mem_iff_find (FsObjectStore.nodup _), hobjs o.id, hfind o.id]
    rfl
  · obtain ⟨hid, hsome⟩ := h.returned obj id hr
    obtain ⟨r, hlatest⟩ := Option.ne_none_iff_exists'.1 hsome
    refine ⟨hid, FsObjectStore.has_iff.2 ⟨r.1, ?_, (latest_some hlatest).2⟩⟩
    refine List.mem_of_find?_eq_some ((hfind id).trans ?_)
    rw [latest] at hlatest
    rw [hlatest]
    rfl

open DiskSample in
/-- Two objects are in their places: the one that was renamed first is read, and a restart loads both, as from the store
of the two calls. -/
theorem refines_sequential_both :
    let seq := sequential tagCrypto [(second, second.toCbor.length), (first, first.toCbor.length)]
    getObjectFile diskEnv storedBoth.fs first.id = seq.get tagCrypto (fun _ => none) first.id ∧
      ∃ objs, loadAllObjectFiles diskEnv storedBoth.fs [objectPath second.id, objectPath first.id] = .ok objs ∧
        objs.Perm seq.objects := by
  obtain ⟨-, -, -, hrenamed⟩ := stored_spec
  have hwhole : storedBoth.Whole := by
    intro id r hr
    have hmem := (latest_some hr).1
    rw [hrenamed, List.mem_pair] at hmem
    rcases hmem with rfl | rfl <;> rfl
  have hone : OnePerId (storedBoth.renamed.map Prod.fst) := by
    have hne : second.id ≠ first.id := by decide +kernel
    rw [hrenamed]
    intro a ha b hb hab
    simp only [List.map_cons, List.map_nil, List.mem_pair] at ha hb
    rcases ha with rfl | rfl <;> rcases hb with rfl | rfl
    · rfl
    · exact absurd hab hne
    · exact absurd hab.symm hne
    · rfl
  have hw : Walks storedBoth.fs ([second, first].map fun o => objectPath o.id) := by
    refine (Inv.reachable reachable_both).walks (by decide +kernel) fun id => ?_
    rw [latest_ne_none, hrenamed]
    rfl
  obtain ⟨hget, hload, -⟩ := refines_sequential roundTrips reachable_both hwhole hone
  rw [hrenamed] at hget hload
  exact ⟨hget first.id, hload _ hw⟩

end StoreState

end Fortiq
