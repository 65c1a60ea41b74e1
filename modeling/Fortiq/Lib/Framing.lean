/-
Items over a stream of symbols. Each item has a packet, and a reader that holds the beginning of a packet can tell how
many symbols it may wait for without running into the next one. Whatever the writer has handed over and however writes
and reads are cut, the reader gets the items in order and none that was not written; and when nothing is left to write
and nothing is on its way, it has got them all.
-/
import Fortiq.Lib.Pipe

/-- What a reader makes of the symbols it holds. -/
inductive Parse (α ε : Type) where
  /-- So many symbols more, before it looks again. -/
  | need (n : Nat)
  | item (a : α)
  | bad (e : ε)
deriving DecidableEq, Repr

structure Framing (α β ε : Type) where
  packet : α → List β
  parse : List β → Parse α ε
  /-- The item has a packet. -/
  Fits : α → Prop
  packet_ne_nil : ∀ {a}, Fits a → packet a ≠ []
  parse_packet : ∀ {a}, Fits a → parse (packet a) = .item a
  /-- The reader of an unfinished packet waits for symbols of that packet. -/
  parse_part : ∀ {a p}, Fits a → p <+: packet a → p ≠ packet a →
    ∃ n, parse p = .need n ∧ 0 < n ∧ p.length + n ≤ (packet a).length

/-- A stream with the ends of its two tasks: the items handed to the writer, what is left to write of the last one, what
the reader holds of the next one, and the items it has read. -/
structure Link (α β : Type) where
  items : List α
  rest : List β
  pipe : Pipe β
  held : List β
  read : List α

namespace Link

variable {α β ε : Type}

def empty : Link α β := ⟨[], [], .empty, [], []⟩

variable (F : Framing α β ε)

def accept (k : Link α β) (a : α) : Link α β := { k with items := k.items ++ [a], rest := k.rest ++ F.packet a }

/-- The link before anything of its first item is written. -/
def starting (a : α) : Link α β := (empty : Link α β).accept F a

def write (k : Link α β) (n : Nat) : Link α β := { k with pipe := k.pipe.push (k.rest.take n), rest := k.rest.drop n }

/-- The writer has so many symbols to write, and the window has room for them. -/
def CanWrite (window : Nat) (k : Link α β) (n : Nat) : Prop :=
  0 < n ∧ n ≤ k.rest.length ∧ k.pipe.Room window n

/-- The item that so many more symbols complete. -/
def completes (k : Link α β) (n : Nat) : Option α :=
  match F.parse (k.held ++ k.pipe.next n) with
  | .item a => some a
  | _ => none

/-- With so many more symbols the reader holds what is no part of a packet. -/
def fails (k : Link α β) (n : Nat) : Bool :=
  match F.parse (k.held ++ k.pipe.next n) with
  | .bad _ => true
  | _ => false

def receive (k : Link α β) (n : Nat) : Link α β :=
  match k.completes F n with
  | some a => { k with pipe := k.pipe.pull n, held := [], read := k.read ++ [a] }
  | none => { k with pipe := k.pipe.pull n, held := k.held ++ k.pipe.next n }

/-- So many symbols have arrived, and the reader waits for no fewer. -/
def CanReceive (k : Link α β) (n : Nat) : Prop :=
  0 < n ∧ n ≤ k.pipe.waiting.length ∧ ∃ m, F.parse k.held = .need m ∧ n ≤ m

/-- The read is given up: what it holds is lost. -/
def cancel (k : Link α β) : Link α β := { k with held := [] }

instance (window : Nat) (k : Link α β) (n : Nat) : Decidable (k.CanWrite window n) :=
  inferInstanceAs (Decidable (_ ∧ _ ∧ _))

/-- The number of symbols the reader waits for. -/
def needed (k : Link α β) : Nat :=
  match F.parse k.held with
  | .need m => m
  | _ => 0

variable {F} {k : Link α β} {a : α} {n window : Nat}

theorem canReceive_iff : k.CanReceive F n ↔ 0 < n ∧ n ≤ k.pipe.waiting.length ∧ n ≤ k.needed F := by
  unfold CanReceive needed
  constructor
  · rintro ⟨hpos, hle, m, hm, hnm⟩
    exact ⟨hpos, hle, by rw [hm]; exact hnm⟩
  · rintro ⟨hpos, hle, hneed⟩
    refine ⟨hpos, hle, ?_⟩
    split at hneed
    · exact ⟨_, by assumption, hneed⟩
    · omega

instance (k : Link α β) (n : Nat) : Decidable (k.CanReceive F n) := decidable_of_iff _ canReceive_iff.symm

/-! ## What the reader has got -/

variable (F) in
/-- What is written and what is left to write are the packets of the items, and the reader stands inside the packet of
the item that comes next. -/
structure Ok (k : Link α β) : Prop where
  fits : ∀ a ∈ k.items, F.Fits a
  written : k.pipe.sent ++ k.rest = k.items.flatMap F.packet
  got : k.pipe.got = k.read.flatMap F.packet ++ k.held
  next : ∃ later, k.items = k.read ++ later ∧ (k.held = [] ∨ ∃ a ∈ later.head?, k.held <+: F.packet a ∧ k.held ≠ F.packet a)

theorem Ok.read_prefix (h : k.Ok F) : k.read <+: k.items := by
  obtain ⟨later, heq, -⟩ := h.next
  exact ⟨later, heq.symm⟩

theorem Ok.empty : (empty : Link α β).Ok F := by
  constructor
  · simp [Link.empty]
  · rfl
  · rfl
  · exact ⟨[], rfl, .inl rfl⟩

theorem Ok.accept (h : k.Ok F) (ha : F.Fits a) : (k.accept F a).Ok F := by
  obtain ⟨later, heq, hheld⟩ := h.next
  constructor
  · intro b hb
    rcases List.mem_append.1 hb with hb | hb
    · exact h.fits b hb
    · rwa [List.mem_singleton.1 hb]
  · show k.pipe.sent ++ (k.rest ++ F.packet a) = (k.items ++ [a]).flatMap F.packet
    rw [← List.append_assoc, h.written, List.flatMap_append, List.flatMap_singleton]
  · exact h.got
  · refine ⟨later ++ [a], by rw [Link.accept, heq, List.append_assoc], ?_⟩
    rcases hheld with hnil | ⟨b, hb, hpart⟩
    · exact .inl hnil
    · exact .inr ⟨b, by rw [List.head?_append, Option.mem_def.1 hb]; rfl, hpart⟩

theorem Ok.write (h : k.Ok F) (n : Nat) : (k.write n).Ok F := by
  constructor
  · exact h.fits
  · show k.pipe.sent ++ k.rest.take n ++ k.rest.drop n = _
    rw [List.append_assoc, List.take_append_drop]
    exact h.written
  · rw [Link.write, Pipe.got_push]
    exact h.got
  · exact h.next

/-- Symbols that are on their way belong to an item that was not read, and the reader holds an unfinished part of the
packet of the first such item. -/
theorem Ok.expects (h : k.Ok F) (hwaiting : k.pipe.waiting ≠ []) : ∃ a tail, k.items = k.read ++ a :: tail ∧ F.Fits a ∧
    k.held <+: F.packet a ∧ k.held ≠ F.packet a := by
  obtain ⟨later, heq, hheld⟩ := h.next
  cases later with
  | nil =>
    exfalso
    have hall := h.written
    rw [heq, List.append_nil, ← k.pipe.got_append_waiting, h.got, List.append_assoc, List.append_assoc] at hall
    have hnil := List.append_eq_nil_iff.1 (List.self_eq_append_right.1 hall.symm)
    exact hwaiting (List.append_eq_nil_iff.1 hnil.2).1
  | cons a tail =>
    have hfits : F.Fits a := h.fits a (by simp [heq])
    refine ⟨a, tail, heq, hfits, ?_⟩
    rcases hheld with hnil | ⟨b, hb, hpart⟩
    · rw [hnil]
      exact ⟨List.nil_prefix, (F.packet_ne_nil hfits).symm⟩
    · cases hb
      exact hpart

/-- What arrives belongs to the packet of the next item. -/
theorem Ok.inside (h : k.Ok F) (hcan : k.CanReceive F n) : ∃ a tail, k.items = k.read ++ a :: tail ∧ F.Fits a ∧
    k.held ++ k.pipe.next n <+: F.packet a := by
  obtain ⟨hpos, hle, m, hm, hnm⟩ := hcan
  have hwaiting : k.pipe.waiting ≠ [] := List.ne_nil_of_length_pos (by omega)
  obtain ⟨a, tail, heq, hfits, hpart, hne⟩ := h.expects hwaiting
  refine ⟨a, tail, heq, hfits, ?_⟩
  -- what arrives goes on where the packets of the items that were read end
  have harrived : k.held ++ k.pipe.next n <+: F.packet a ++ tail.flatMap F.packet := by
    have hall : k.pipe.got ++ k.pipe.next n <+: k.items.flatMap F.packet := by
      rw [← h.written]
      refine List.IsPrefix.trans ?_ (List.prefix_append _ _)
      rw [← Pipe.got_pull]
      exact Pipe.got_prefix (k.pipe.pull n)
    rwa [h.got, heq, List.flatMap_append, List.append_assoc, List.prefix_append_right_inj, List.flatMap_cons] at hall
  obtain ⟨m', hm', -, hbound⟩ := F.parse_part hfits hpart hne
  obtain rfl : m = m' := Parse.need.inj (hm.symm.trans hm')
  refine List.prefix_of_prefix_length_le harrived (List.prefix_append _ _) ?_
  rw [List.length_append, Pipe.length_next hle]
  omega

/-- A read takes the next item exactly when its packet is complete. -/
theorem Ok.completes_iff (h : k.Ok F) (hcan : k.CanReceive F n) : k.completes F n = some a ↔
    F.Fits a ∧ k.held ++ k.pipe.next n = F.packet a ∧ k.read ++ [a] <+: k.items := by
  obtain ⟨b, tail, heq, hfits, hpart⟩ := h.inside hcan
  have hnext : k.read ++ [a] <+: k.items ↔ a = b := by
    rw [heq, List.prefix_append_right_inj, List.cons_prefix_cons]
    simp
  rw [hnext]
  unfold completes
  by_cases hfull : k.held ++ k.pipe.next n = F.packet b
  · rw [hfull, F.parse_packet hfits]
    constructor
    · intro hb
      obtain rfl : b = a := Option.some.inj hb
      exact ⟨hfits, rfl, rfl⟩
    · rintro ⟨-, -, rfl⟩
      rfl
  · obtain ⟨m, hm, -⟩ := F.parse_part hfits hpart hfull
    rw [hm]
    constructor
    · rintro ⟨⟩
    · rintro ⟨-, hpacket, rfl⟩
      exact absurd hpacket hfull

theorem Ok.receive (h : k.Ok F) (hcan : k.CanReceive F n) : (k.receive F n).Ok F := by
  have hgot : (k.pipe.pull n).got = k.read.flatMap F.packet ++ (k.held ++ k.pipe.next n) := by
    rw [Pipe.got_pull, h.got, List.append_assoc]
  unfold Link.receive
  split
  · rename_i a ha
    obtain ⟨-, hpacket, hread⟩ := (h.completes_iff hcan).1 ha
    constructor
    · exact h.fits
    · exact h.written
    · show (k.pipe.pull n).got = (k.read ++ [a]).flatMap F.packet ++ []
      rw [hgot, hpacket, List.flatMap_append, List.flatMap_singleton, List.append_nil]
    · obtain ⟨later, heq⟩ := hread
      exact ⟨later, heq.symm, .inl rfl⟩
  · rename_i hnone
    obtain ⟨a, tail, heq, hfits, hpart⟩ := h.inside hcan
    refine ⟨h.fits, h.written, hgot, a :: tail, heq, .inr ⟨a, rfl, hpart, fun hfull => ?_⟩⟩
    have := (h.completes_iff hcan).2 ⟨hfits, hfull, ⟨tail, by rw [heq, List.append_assoc]; rfl⟩⟩
    rw [hnone] at this
    cases this

/-- A read that holds nothing can be given up. -/
theorem Ok.cancel (h : k.Ok F) (hheld : k.held = []) : k.cancel.Ok F := by
  have : k.cancel = k := by
    rw [Link.cancel, ← hheld]
  rwa [this]

/-! ## Nothing is left behind -/

/-- An item that was not read is still to be written or on its way. -/
theorem Ok.settled (h : k.Ok F) (hrest : k.rest = []) (hwaiting : k.pipe.waiting = []) : k.read = k.items := by
  obtain ⟨later, heq, hheld⟩ := h.next
  have hall : k.held = later.flatMap F.packet := by
    have hgot : k.pipe.got = k.items.flatMap F.packet := by
      rw [← h.written, hrest, List.append_nil, ← k.pipe.got_append_waiting, hwaiting, List.append_nil]
    rw [h.got, heq, List.flatMap_append] at hgot
    exact List.append_cancel_left hgot
  cases later with
  | nil => rw [heq, List.append_nil]
  | cons a tail =>
    exfalso
    have hfits : F.Fits a := h.fits a (by simp [heq])
    rw [List.flatMap_cons] at hall
    rcases hheld with hnil | ⟨b, hb, hpart, hne⟩
    · exact F.packet_ne_nil hfits (List.append_eq_nil_iff.1 (hall.symm.trans hnil)).1
    · cases hb
      apply hne
      refine hpart.eq_of_length_le ?_
      rw [hall, List.length_append]
      omega

/-- A reader that waits for an item takes what arrives. -/
theorem Ok.canReceive (h : k.Ok F) (hwaiting : k.pipe.waiting ≠ []) : k.CanReceive F 1 := by
  obtain ⟨a, tail, -, hfits, hpart, hne⟩ := h.expects hwaiting
  obtain ⟨m, hm, hpos, -⟩ := F.parse_part hfits hpart hne
  exact ⟨one_pos, List.length_pos_of_ne_nil hwaiting, m, hm, hpos⟩

/-- A writer with something left writes while the window is open. -/
theorem canWrite_one (hrest : k.rest ≠ []) (hroom : k.pipe.Room window 1) : k.CanWrite window 1 :=
  ⟨one_pos, List.length_pos_of_ne_nil hrest, hroom⟩

/-! ## One packet after another -/

/-- Nothing is left to write, on its way or held. -/
structure Quiet (k : Link α β) : Prop where
  rest : k.rest = []
  held : k.held = []
  waiting : k.pipe.waiting = []

theorem Quiet.rest_accept (h : k.Quiet) : (k.accept F a).rest = F.packet a := by
  rw [Link.accept, h.rest]
  rfl

theorem Quiet.canWrite (h : k.Quiet) (hfits : F.Fits a) (hwindow : (F.packet a).length ≤ window) :
    (k.accept F a).CanWrite window (F.packet a).length := by
  refine ⟨List.length_pos_of_ne_nil (F.packet_ne_nil hfits), ?_, ?_⟩
  · rw [h.rest_accept]
  · show k.pipe.waiting.length + (F.packet a).length ≤ window
    rw [h.waiting]
    simpa using hwindow

/-- The packet goes on. -/
theorem unfinished {m : Nat} (h : F.parse (k.held ++ k.pipe.next n) = .need m) :
    k.completes F n = none ∧ k.fails F n = false := by
  rw [completes, fails, h]
  exact ⟨rfl, rfl⟩

theorem fails_of_completes (h : k.completes F n = some a) : k.fails F n = false := by
  unfold completes at h
  unfold fails
  split at h
  · rename_i heq
    rw [heq]
  · cases h

@[simp] theorem items_receive : (k.receive F n).items = k.items := by
  unfold receive
  split <;> rfl

variable (F) in
/-- The reads by which one item arrives. -/
inductive Arrival (a : α) : Link α β → Link α β → Prop
  | last {k : Link α β} {n : Nat} (hcan : k.CanReceive F n) (hitem : k.completes F n = some a) :
      Arrival a k (k.receive F n)
  | more {k k' : Link α β} {n : Nat} (hcan : k.CanReceive F n) (hnone : k.completes F n = none)
      (hgood : k.fails F n = false) (h : Arrival a (k.receive F n) k') : Arrival a k k'

theorem Arrival.items {k' : Link α β} (h : Arrival F a k k') : k'.items = k.items := by
  induction h with
  | last => exact items_receive
  | more _ _ _ _ ih => exact ih.trans items_receive

/-- An item arrives wherever the rest of its packet is what comes next; what was written before does not matter. -/
theorem arrival (hfits : F.Fits a) (l : List β) : ∀ {k : Link α β} (w : List β), k.held ++ w = F.packet a → w ≠ [] →
    k.pipe.waiting = w ++ l → Arrival F a k { k with pipe := k.pipe.pull w.length, held := [], read := k.read ++ [a] } := by
  intro k w
  induction hw : w.length using Nat.strong_induction_on generalizing k w with
  | _ len ih =>
    intro hpacket hne hwaiting
    subst hw
    have hpos : 0 < w.length := List.length_pos_of_ne_nil hne
    have hlen : k.held.length + w.length = (F.packet a).length := by rw [← hpacket, List.length_append]
    -- the reader waits for no more than the packet
    obtain ⟨n, hn, hnpos, hbound⟩ := F.parse_part hfits ⟨w, hpacket⟩ fun heq => by
      rw [heq] at hlen
      omega
    have hnw : n ≤ w.length := by omega
    have hnext : k.pipe.next n = w.take n := by rw [Pipe.next, hwaiting, List.take_append_of_le_length hnw]
    have hcan : k.CanReceive F n := ⟨hnpos, by rw [hwaiting, List.length_append]; omega, n, hn, le_rfl⟩
    by_cases hall : n = w.length
    · have hparse : F.parse (k.held ++ k.pipe.next n) = .item a := by
        rw [hnext, hall, List.take_length, hpacket, F.parse_packet hfits]
      have hitem : k.completes F n = some a := by rw [completes, hparse]
      have hlast := Arrival.last hcan hitem
      rw [receive, hitem, hall] at hlast
      exact hlast
    · have hrest : w.drop n ≠ [] := List.ne_nil_of_length_pos (by rw [List.length_drop]; omega)
      have hheld : (k.held ++ w.take n) ++ w.drop n = F.packet a := by
        rw [List.append_assoc, List.take_append_drop, hpacket]
      obtain ⟨m, hm, -⟩ := F.parse_part hfits ⟨w.drop n, hheld⟩ fun heq => by
        rw [heq] at hheld
        exact hrest (List.append_right_eq_self.1 hheld)
      rw [← hnext] at hm hheld
      obtain ⟨hnone, hgood⟩ := unfinished hm
      have hreceive : k.receive F n = { k with pipe := k.pipe.pull n, held := k.held ++ k.pipe.next n } := by
        rw [receive, hnone]
      refine .more hcan hnone hgood ?_
      rw [hreceive]
      have hgo := ih (w.drop n).length (by rw [List.length_drop]; omega)
        (k := { k with pipe := k.pipe.pull n, held := k.held ++ k.pipe.next n }) (w.drop n) rfl hheld hrest (by
          show (k.pipe.pull n).waiting = _
          rw [Pipe.waiting_pull hcan.2.1, hwaiting, List.drop_append_of_le_length hnw])
      rw [Pipe.pull_pull, List.length_drop, Nat.add_sub_cancel' hnw] at hgo
      exact hgo

/-- The packet of an item that was written on a quiet link is on its way. -/
theorem Quiet.waiting_written (h : k.Quiet) : ((k.accept F a).write (F.packet a).length).pipe.waiting = F.packet a := by
  rw [Link.write, Pipe.waiting_push, h.rest_accept, List.take_length]
  show k.pipe.waiting ++ _ = _
  rw [h.waiting, List.nil_append]

/-- On a quiet link an item is written and arrives, and the link is quiet again. -/
theorem Quiet.pass (h : k.Quiet) (hfits : F.Fits a) :
    ∃ k', Arrival F a ((k.accept F a).write (F.packet a).length) k' ∧ k'.Quiet := by
  have hwaiting := h.waiting_written (F := F) (a := a)
  have hheld : ((k.accept F a).write (F.packet a).length).held = [] := h.held
  refine ⟨_, arrival hfits [] (F.packet a) (by rw [hheld]; rfl) (F.packet_ne_nil hfits)
    (by rw [hwaiting, List.append_nil]), ?_, rfl, ?_⟩
  · show (k.accept F a).rest.drop (F.packet a).length = []
    rw [h.rest_accept, List.drop_length]
  · show (Pipe.pull _ _).waiting = []
    rw [Pipe.waiting_pull (by rw [hwaiting]), hwaiting, List.drop_length]

end Link
