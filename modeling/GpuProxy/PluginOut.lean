import GpuProxy.Entity
import Mathlib.Data.List.Basic

/-!
# The plugin's writer

All writing of the sealing plugin goes through one `PluginOut`: a buffered writer over
stdout behind a lock, which a message holds from its first byte until the buffer is
flushed. stdout takes the bytes of a write in pieces of any size.
-/

namespace GpuProxy

/-- tokio's `BufWriter`, and what the stdout under it has taken. The first `written` bytes
of the buffer have been handed on already. -/
structure BufWriter where
  stdout : Bytes
  buf : Bytes
  written : Nat
  deriving DecidableEq, Repr

namespace BufWriter

def pending (w : BufWriter) : Bytes := w.buf.drop w.written

/-- One write of `flush_buf`: stdout takes the next `n` bytes of the buffer. -/
def flushBuf (n : Nat) (w : BufWriter) : Option BufWriter :=
  if 0 < n ∧ n ≤ w.pending.length then
    let stdout := w.stdout ++ w.pending.take n
    if w.written + n = w.buf.length then some ⟨stdout, [], 0⟩
    else some ⟨stdout, w.buf, w.written + n⟩
  else none

/-- One turn of `poll_write`, with the number of bytes it has accepted: none while the
buffer is handed on to make room; `n` where the data would fill the buffer and goes to
stdout directly; all of them where they fit. -/
def pollWrite (capacity n : Nat) (data : Bytes) (w : BufWriter) : Option (Nat × BufWriter) :=
  if capacity < w.buf.length + data.length ∧ w.buf ≠ [] then
    (w.flushBuf n).map fun w => (0, w)
  else if capacity ≤ data.length then
    if 0 < n ∧ n ≤ data.length then some (n, { w with stdout := w.stdout ++ data.take n })
    else none
  else some (data.length, { w with buf := w.buf ++ data })

/-- Bytes are handed on in order and none is lost. -/
theorem flushBuf_some {n : Nat} {w w' : BufWriter} (h : w.flushBuf n = some w')
    (valid : w.written ≤ w.buf.length) :
    w'.written ≤ w'.buf.length ∧ ∃ taken, w'.stdout = w.stdout ++ taken ∧
      taken ++ w'.pending = w.pending := by
  simp only [flushBuf] at h
  split at h
  · next size =>
    split at h
    · next all =>
      cases h
      refine ⟨Nat.le_refl _, w.pending.take n, rfl, ?_⟩
      have whole : w.pending.length ≤ n := by
        simp only [pending, List.length_drop]
        omega
      rw [List.take_of_length_le whole]
      simp [pending]
    · next some_left =>
      cases h
      have inside : n ≤ w.buf.length - w.written := by simpa [pending] using size.2
      refine ⟨by simp only; omega, w.pending.take n, rfl, ?_⟩
      simp only [pending, ← List.drop_drop, List.take_append_drop]
  · cases h

theorem pollWrite_some {capacity n k : Nat} {data : Bytes} {w w' : BufWriter}
    (h : w.pollWrite capacity n data = some (k, w')) (valid : w.written ≤ w.buf.length) :
    w'.written ≤ w'.buf.length ∧ ∃ taken, w'.stdout = w.stdout ++ taken ∧
      taken ++ w'.pending ++ data.drop k = w.pending ++ data := by
  simp only [pollWrite] at h
  split at h
  · obtain ⟨u, flushed, same⟩ := Option.map_eq_some_iff.mp h
    cases same
    obtain ⟨valid', taken, out, rest⟩ := flushBuf_some flushed valid
    exact ⟨valid', taken, out, by rw [rest, List.drop_zero]⟩
  · next room =>
    split at h
    · next large =>
      split at h
      · cases h
        -- nothing is in the buffer, or this branch would have flushed it
        have empty : w.buf = [] := by
          by_contra filled
          exact room ⟨by have := List.length_pos_of_ne_nil filled; omega, filled⟩
        refine ⟨valid, data.take n, rfl, ?_⟩
        simp [pending, empty]
      · cases h
    · cases h
      refine ⟨by simp only [List.length_append]; omega, [], by simp, ?_⟩
      simp [pending, List.drop_append_of_le_length valid]

end BufWriter

/-- How far a call of `PluginOut::write_all` is. -/
inductive WriteAll where
  | locking
  | writing (rest : Bytes)
  | flushing
  | returned
  deriving DecidableEq, Repr

/-- What a call that holds the lock has yet to put into the writer. -/
def WriteAll.rest : WriteAll → Option Bytes
  | .writing rest => some rest
  | .flushing => some []
  | _ => none

structure PluginOut where
  writer : BufWriter
  locked : Bool
  deriving DecidableEq, Repr

namespace PluginOut

/-- The next step of a call that writes `data`. -/
def writeAll (capacity n : Nat) (data : Bytes) (out : PluginOut) :
    WriteAll → Option (PluginOut × WriteAll)
  | .locking => if out.locked then none else some ({ out with locked := true }, .writing data)
  | .writing [] => some (out, .flushing)
  | .writing rest =>
    (out.writer.pollWrite capacity n rest).map fun (k, writer) =>
      ({ out with writer := writer }, .writing (rest.drop k))
  | .flushing =>
    if out.writer.buf = [] then some ({ out with locked := false }, .returned)
    else (out.writer.flushBuf n).map fun writer => ({ out with writer := writer }, .flushing)
  | .returned => none

/-- `base` is out, then `data` down to its last `rest`, some of it still in the buffer. -/
def Sending (base data rest : Bytes) (out : PluginOut) : Prop :=
  out.locked = true ∧ out.writer.written ≤ out.writer.buf.length ∧
    ∃ sent, out.writer.stdout = base ++ sent ∧ sent ++ out.writer.pending ++ rest = data

/-- `base` is out, and nobody is writing. -/
def idle (base : Bytes) : PluginOut := ⟨⟨base, [], 0⟩, false⟩

variable {capacity n : Nat} {base data rest : Bytes} {out out' : PluginOut}
  {call call' : WriteAll}

/-- A call gets the lock only when nobody is writing. -/
theorem writeAll_locking
    (h : writeAll capacity n data out .locking = some (out', call')) :
    out.locked = false ∧ out' = { out with locked := true } ∧ call' = .writing data := by
  simp only [writeAll] at h
  split at h
  · cases h
  · next free =>
    cases h
    exact ⟨by simpa using free, rfl, rfl⟩

theorem sending_idle (base data : Bytes) :
    Sending base data data { idle base with locked := true } :=
  ⟨rfl, Nat.le_refl _, [], by simp [idle], by simp [idle, BufWriter.pending]⟩

/-- The call that holds the lock goes on sending, or everything it had to send is out. -/
theorem writeAll_sending (h : writeAll capacity n data out call = some (out', call'))
    (holds : call.rest = some rest) (sending : Sending base data rest out) :
    (∃ rest', call'.rest = some rest' ∧ Sending base data rest' out') ∨
      (call' = .returned ∧ out' = idle (base ++ data)) := by
  obtain ⟨locked, valid, sent, stdout, whole⟩ := sending
  cases call with
  | locking | returned => cases holds
  | writing bytes =>
    cases holds
    cases rest with
    | nil =>
      cases h
      exact Or.inl ⟨[], rfl, locked, valid, sent, stdout, whole⟩
    | cons b bytes =>
      obtain ⟨⟨k, writer⟩, polled, same⟩ := Option.map_eq_some_iff.mp h
      cases same
      obtain ⟨valid', taken, more, rest'⟩ := BufWriter.pollWrite_some polled valid
      refine Or.inl ⟨(b :: bytes).drop k, rfl, locked, valid', sent ++ taken, ?_, ?_⟩
      · rw [more, stdout, List.append_assoc]
      · rw [← whole]
        simp only [List.append_assoc] at rest' ⊢
        rw [rest']
  | flushing =>
    cases holds
    simp only [writeAll] at h
    split at h
    · next empty =>
      cases h
      have nothing : out.writer.pending = [] := by simp [BufWriter.pending, empty]
      have all : sent = data := by simpa [nothing] using whole
      have start : out.writer.written = 0 := by simpa [empty] using valid
      refine Or.inr ⟨rfl, ?_⟩
      simp only [idle, ← all, ← stdout, ← empty, ← start]
    · obtain ⟨writer, flushed, same⟩ := Option.map_eq_some_iff.mp h
      cases same
      obtain ⟨valid', taken, more, rest'⟩ := BufWriter.flushBuf_some flushed valid
      refine Or.inl ⟨[], rfl, locked, valid', sent ++ taken, ?_, ?_⟩
      · rw [more, stdout, List.append_assoc]
      · rw [← whole, ← rest']
        simp only [List.append_assoc]

end PluginOut

end GpuProxy
