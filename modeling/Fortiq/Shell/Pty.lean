/-
The task of `serve_pty` (`fortiq-shell/src/lib.rs`) that reads the pseudoterminal of a shell. What it reads goes to the
operator as data frames; a shell that asks for the position of the cursor (`ESC[6n`) is answered at once. The question
is looked for in each read by itself, so the number of answers depends on how the output is split into reads.
-/
import Fortiq.Lib.Occurrences
import Fortiq.Shell.Frame

namespace Fortiq.Pty

open Occurrences

/-! ## The task -/

/-- `\x1b[6n`. -/
def cursorQuery : List UInt8 := [0x1b, 0x5b, 0x36, 0x6e]

/-- `\x1b[1;1R`. -/
def cursorReply : List UInt8 := [0x1b, 0x5b, 0x31, 0x3b, 0x31, 0x52]

/-- What a read leaves in the buffer of 4096 bytes. -/
abbrev Buffer := { l : List UInt8 // l ≠ [] ∧ l.length ≤ 4096 }

inductive PtyRead where
  /-- `Ok(0)`. -/
  | eof
  /-- `Err(_)`. -/
  | failed
  /-- `Ok(n)`, and whether the two channels take what is sent into them. -/
  | bytes (buf : Buffer) (replyTaken frameTaken : Bool)

/-- What the task has sent: bytes for the shell, and frames for the operator. -/
structure Sent where
  replies : List (List UInt8)
  frames : List ShellFrame
deriving DecidableEq, Repr

def readTask : List PtyRead → Sent
  | [] => ⟨[], []⟩
  | .eof :: _ => ⟨[], []⟩
  | .failed :: _ => ⟨[], []⟩
  | .bytes buf replyTaken frameTaken :: reads =>
    let asked := (windows 4 buf.1).any (· == cursorQuery)
    -- a reply that is not taken is dropped; a frame that is not taken ends the task
    let replies := if asked && replyTaken then [cursorReply] else []
    if frameTaken then ⟨replies ++ (readTask reads).replies, .data buf.1 :: (readTask reads).frames⟩
    else ⟨replies, []⟩

/-- The output of a shell in these reads, while both channels are open. -/
def output (bufs : List Buffer) : List PtyRead := bufs.map fun buf => .bytes buf true true

/-! ## Answers and questions -/

/-- A read is answered once if it has the question in it, however often. -/
theorem count_replies : ∀ bufs : List Buffer, (readTask (output bufs)).replies.count cursorReply =
    (bufs.map fun buf => min 1 (occurrences cursorQuery buf.1)).sum
  | [] => rfl
  | buf :: bufs => by
    have hasked := any_windows cursorQuery buf.1
    rw [List.map_cons, List.sum_cons, ← count_replies bufs]
    change ((if (windows 4 buf.1).any (· == cursorQuery) && true then [cursorReply] else []) ++
      (readTask (output bufs)).replies).count cursorReply = _
    rw [List.count_append, Bool.and_true]
    congr 1
    split
    · rename_i h
      rw [Nat.min_eq_left (hasked.1 h)]
      rfl
    · rename_i h
      rw [Nat.eq_zero_of_not_pos (mt hasked.2 h)]
      rfl

theorem sum_min_one {α : Type} (f : α → Nat) : ∀ l : List α,
    (l.map fun a => min 1 (f a)).sum ≤ (l.map f).sum ∧
      ((l.map fun a => min 1 (f a)).sum = (l.map f).sum ↔ ∀ a ∈ l, f a ≤ 1)
  | [] => by simp
  | a :: l => by
    obtain ⟨hle, heq⟩ := sum_min_one f l
    rw [List.forall_mem_cons, ← heq]
    simp only [List.map_cons, List.sum_cons]
    constructor <;> omega

/-- The shell gets as many answers as it asks questions exactly if no read has two questions in it and no question is
split over reads. -/
theorem replies_eq_queries_iff (bufs : List Buffer) :
    (readTask (output bufs)).replies.count cursorReply = occurrences cursorQuery (bufs.map Subtype.val).flatten ↔
      (∀ buf ∈ bufs, occurrences cursorQuery buf.1 ≤ 1) ∧ ¬ SplitAcross cursorQuery (bufs.map Subtype.val) := by
  obtain ⟨hle, heq⟩ := sum_min_one (fun buf : Buffer => occurrences cursorQuery buf.1) bufs
  obtain ⟨hle', heq'⟩ := sum_occurrences cursorQuery (bufs.map Subtype.val)
  rw [List.map_map] at hle' heq'
  change (bufs.map fun buf => occurrences cursorQuery buf.1).sum ≤ _ at hle'
  change (bufs.map fun buf => occurrences cursorQuery buf.1).sum = _ ↔ _ at heq'
  rw [count_replies, ← heq, ← heq']
  omega

/-- Two questions in one read are answered once; a question split over two reads is not answered. -/
theorem queries_missed :
    let both : Buffer := ⟨cursorQuery ++ cursorQuery, by decide, by decide⟩
    let first : Buffer := ⟨[0x1b, 0x5b], by decide, by decide⟩
    let second : Buffer := ⟨[0x36, 0x6e], by decide, by decide⟩
    ((readTask (output [both])).replies = [cursorReply] ∧ occurrences cursorQuery both.1 = 2) ∧
      (readTask (output [first, second])).replies = [] ∧ occurrences cursorQuery (first.1 ++ second.1) = 1 := by
  decide

end Fortiq.Pty
