import Mathlib.Algebra.Ring.Int.Defs
import Mathlib.Algebra.Ring.Nat
import Mathlib.Data.List.TakeWhile
import CliInstaller.Cpp.Runtime

/-!
# `exec_follow`: following the output of a process

The output of a child process is read into a buffer of fixed size. What a read asks for is the room
that is left, so nothing is written outside the buffer; but a full buffer makes the read return
nothing, as the end of the output does, and the loop ends with output unread.

Source: `src/utils.cpp`, `src/subprocess.h`.

## Main definitions

* `Delivery`: how the output arrives
* `Reading`, `readLoop`: the buffer and the loop
* `ChildProcess`, `execFollow`: the whole call
* `WholeOutputRead`: what the loop is meant to do

## Main results

* `readLoop_filled`: what the loop has read when it ends
* `wholeOutputRead_iff`: when the loop reads the whole output
* `execFollow_returns`: what the call returns
-/

namespace CliInstaller

/-! ## The output of a child -/

/-- **How the output arrives**: the bytes there are for each read, at least one while there is
output. -/
structure Delivery where
  available : Nat → Nat
  pos : ∀ read, 0 < available read

/-- `subprocess_read_stdout`: the number of bytes that the read returns, of `requested` ones. -/
def Delivery.bytesRead (delivery : Delivery) (read requested : Nat) (unread : Str) : Nat :=
  min (delivery.available read) (min requested unread.length)

theorem bytesRead_pos_iff {delivery : Delivery} {read requested : Nat} {unread : Str} :
    0 < delivery.bytesRead read requested unread ↔ 0 < requested ∧ unread ≠ [] := by
  rw [Delivery.bytesRead, Nat.lt_min, Nat.lt_min, List.length_pos_iff]
  exact and_iff_right (delivery.pos read)

theorem bytesRead_le_requested (delivery : Delivery) (read requested : Nat) (unread : Str) :
    delivery.bytesRead read requested unread ≤ requested :=
  (min_le_right _ _).trans (min_le_left _ _)

theorem bytesRead_le_length (delivery : Delivery) (read requested : Nat) (unread : Str) :
    delivery.bytesRead read requested unread ≤ unread.length :=
  (min_le_right _ _).trans (min_le_right _ _)

/-! ## The buffer -/

/-- `data.size()` -/
def dataSize : Nat := 1048576 + 1

/-- An integer as `std::uint32_t`. -/
def uint32 (n : Int) : Nat := (n % 2 ^ 32).toNat

theorem uint32_of_lt {n : Nat} (h : n < 2 ^ 32) : uint32 n = n := by
  rw [uint32]
  omega

/-- Bytes are written from an offset on. -/
def writeAt (data : Str) (pos : Nat) (bytes : Str) : Except Fault Str :=
  if pos + bytes.length ≤ data.length then
    .ok (data.take pos ++ bytes ++ data.drop (pos + bytes.length))
  else .error .indexPastEnd

/-- The characters up to a NUL. -/
def upToNul (data : Str) : Str := data.takeWhile (· != '\x00')

/-- The string that starts at `data.data()`. -/
def cString (data : Str) : Except Fault Str :=
  if data.contains '\x00' then .ok (upToNul data) else .error .indexPastEnd

/-- The variables of the loop. -/
structure Reading where
  data : Str
  index : Nat
  processLog : Str
  /-- how often the child was read from -/
  reads : Nat
  deriving DecidableEq, Repr

namespace Reading

/-- The number of bytes that are asked for. -/
def requested (s : Reading) : Nat := uint32 ((uint32 dataSize : Int) - 1 - s.index)

/-- The body of the loop, once the read returns these bytes. -/
def store (s : Reading) (bytes : Str) : Except Fault Reading := do
  let data ← writeAt s.data s.index bytes
  let processLog ← cString data
  return { data, index := uint32 (s.index + bytes.length), processLog, reads := s.reads + 1 }

end Reading

/-- The loop: the variables at its end, and the output that is not read. -/
def readLoop (delivery : Delivery) (s : Reading) (unread : Str) : Except Fault (Reading × Str) :=
  let bytesRead := delivery.bytesRead s.reads s.requested unread
  match s.store (unread.take bytesRead) with
  | .error fault => .error fault
  | .ok s =>
    if _ : 0 < bytesRead then readLoop delivery s (unread.drop bytesRead)
    else .ok (s, unread.drop bytesRead)
termination_by unread.length
decreasing_by
  have hle : bytesRead ≤ unread.length := bytesRead_le_length _ _ _ _
  rw [List.length_drop]
  omega

/-- The variables before the loop: the buffer is filled with zeros. -/
def Reading.init (processLog : Str) : Reading where
  data := List.replicate dataSize '\x00'
  index := 0
  processLog := processLog
  reads := 0

/-- **The whole output is read**: nothing is written outside the buffer, the loop ends at the end of
the output, and `process_log` is the output; so the child can write what is left to the pipe, and
end. -/
structure WholeOutputRead (delivery : Delivery) (pipeCapacity : Nat) (processLog output : Str) :
    Prop where
  ended : ∃ s unread, readLoop delivery (.init processLog) output = .ok (s, unread) ∧
    unread = [] ∧ s.processLog = output ∧ unread.length ≤ pipeCapacity

/-! ## The loop -/

/-- The variables when a text has been read. -/
def Reading.filled (read processLog : Str) (reads : Nat) : Reading where
  data := read ++ List.replicate (dataSize - read.length) '\x00'
  index := read.length
  processLog := processLog
  reads := reads

section Loop

variable {read unread bytes processLog : Str} {reads : Nat} {delivery : Delivery}

theorem requested_filled (h : read.length < dataSize) :
    (Reading.filled read processLog reads).requested = dataSize - 1 - read.length := by
  have hsize : uint32 dataSize = dataSize := by decide
  show uint32 ((uint32 dataSize : Int) - 1 - read.length) = _
  rw [hsize, uint32]
  rw [dataSize] at *
  omega

/-- What is written to the buffer follows what was read. -/
theorem writeAt_filled (h : read.length + bytes.length < dataSize) :
    writeAt (Reading.filled read processLog reads).data read.length bytes =
      .ok (Reading.filled (read ++ bytes) processLog reads).data := by
  rw [writeAt, Reading.filled, if_pos (by rw [List.length_append, List.length_replicate]; omega)]
  simp only [Reading.filled]
  rw [List.take_left, List.drop_append, List.drop_eq_nil_of_le (Nat.le_add_right _ _),
    List.drop_replicate, List.length_append, List.nil_append]
  congr 3
  omega

/-- The last byte of the buffer is never written, so there is a NUL. -/
theorem cString_filled (h : read.length < dataSize) :
    cString (Reading.filled read processLog reads).data = .ok (upToNul read) := by
  obtain ⟨n, hn⟩ : ∃ n, dataSize - read.length = n + 1 := ⟨dataSize - read.length - 1, by omega⟩
  rw [cString, Reading.filled, hn, List.replicate_succ, if_pos (by simp), upToNul, upToNul,
    List.takeWhile_append]
  split_ifs with hall
  · rw [(List.takeWhile_prefix _).eq_of_length hall]
    simp
  · rfl

/-- **What one read stores.** -/
theorem store_filled (h : read.length + bytes.length < dataSize) :
    (Reading.filled read processLog reads).store bytes =
      .ok (.filled (read ++ bytes) (upToNul (read ++ bytes)) (reads + 1)) := by
  have hlength : (read ++ bytes).length < dataSize := by rwa [List.length_append]
  rw [Reading.store, show (Reading.filled read processLog reads).index = read.length from rfl,
    writeAt_filled h]
  simp only [bind, Except.bind, cString_filled hlength]
  have hindex : uint32 ((read.length : Int) + bytes.length) = (read ++ bytes).length := by
    rw [List.length_append, ← Int.natCast_add, uint32_of_lt]
    rw [dataSize] at h
    omega
  rw [hindex]
  rfl

/-- **What the loop has read when it ends**: as much of the output as there is room for. -/
theorem readLoop_filled (delivery : Delivery) (h : read.length < dataSize) :
    ∃ reads', readLoop delivery (.filled read processLog reads) unread =
      let received := read ++ unread.take (dataSize - 1 - read.length)
      .ok (.filled received (upToNul received) reads',
        unread.drop (dataSize - 1 - read.length)) := by
  induction hn : unread.length using Nat.strong_induction_on
    generalizing read unread processLog reads with
  | _ n ih =>
    have hrequested : (Reading.filled read processLog reads).requested =
      dataSize - 1 - read.length := requested_filled h
    obtain ⟨count, hcount⟩ : ∃ count, delivery.bytesRead
      (Reading.filled read processLog reads).reads (dataSize - 1 - read.length) unread = count :=
      ⟨_, rfl⟩
    have hroom : count ≤ dataSize - 1 - read.length := hcount ▸ bytesRead_le_requested _ _ _ _
    have hlength : (unread.take count).length = count := by
      rw [List.length_take, min_eq_left (hcount ▸ bytesRead_le_length _ _ _ _)]
    have hpos := @bytesRead_pos_iff delivery (Reading.filled read processLog reads).reads
      (dataSize - 1 - read.length) unread
    rw [readLoop, hrequested]
    simp only [hcount] at hpos ⊢
    rw [store_filled (by omega)]
    simp only
    split_ifs with hmore
    · have hread : (read ++ unread.take count).length = read.length + count := by
        rw [List.length_append, hlength]
      have hlt : (unread.drop count).length < n := by
        rw [List.length_drop, hn]
        have := List.length_pos_iff.mpr (hpos.mp hmore).2
        omega
      obtain ⟨reads', hloop⟩ := @ih _ hlt (read ++ unread.take count) (unread.drop count)
        (upToNul (read ++ unread.take count)) (reads + 1) (by rw [hread]; omega) rfl
      refine ⟨reads', hloop.trans ?_⟩
      have hsum : dataSize - 1 - read.length = count + (dataSize - 1 - (read.length + count)) := by
        omega
      rw [hread, List.append_assoc, hsum, List.take_add, List.drop_drop]
    · obtain rfl : count = 0 := Nat.eq_zero_of_not_pos hmore
      have hend : unread.take (dataSize - 1 - read.length) = [] ∧
          unread.drop (dataSize - 1 - read.length) = unread := by
        by_cases hfull : dataSize - 1 - read.length = 0
        · rw [hfull]
          exact ⟨List.take_zero, List.drop_zero⟩
        · obtain rfl : unread = [] := by
            by_contra hne
            exact hmore (hpos.mpr ⟨Nat.pos_of_ne_zero hfull, hne⟩)
          exact ⟨List.take_nil, List.drop_nil⟩
      rw [hend.1, hend.2]
      exact ⟨_, rfl⟩

/-- The loop of a call: what is read of the output, and what is left of it. -/
theorem readLoop_init (delivery : Delivery) (processLog output : Str) :
    ∃ s, readLoop delivery (.init processLog) output = .ok (s, output.drop (dataSize - 1)) ∧
      s.processLog = upToNul (output.take (dataSize - 1)) := by
  obtain ⟨reads', hloop⟩ := @readLoop_filled [] output processLog 0 delivery (by decide)
  exact ⟨_, hloop, rfl⟩

/-- **When the loop reads the whole output**: when it fits into the buffer, and holds no NUL. -/
theorem wholeOutputRead_iff (delivery : Delivery) (pipeCapacity : Nat) (processLog output : Str) :
    WholeOutputRead delivery pipeCapacity processLog output ↔
      output.length ≤ 1048576 ∧ '\x00' ∉ output := by
  obtain ⟨s, hloop, hlog⟩ := readLoop_init delivery processLog output
  constructor
  · rintro ⟨s', unread, hs, hunread, hlog', -⟩
    obtain ⟨rfl, rfl⟩ := Prod.mk.inj (Except.ok.inj (hs.symm.trans hloop))
    have hfits : output.length ≤ 1048576 := List.drop_eq_nil_iff.mp hunread
    have htake : output.take (dataSize - 1) = output := List.take_of_length_le hfits
    refine ⟨hfits, fun hnul => ?_⟩
    rw [hlog, htake, upToNul, List.takeWhile_eq_self_iff] at hlog'
    exact absurd (hlog' _ hnul) (by decide)
  · rintro ⟨hfits, hnul⟩
    have htake : output.take (dataSize - 1) = output := List.take_of_length_le hfits
    have hdrop : output.drop (dataSize - 1) = [] := List.drop_eq_nil_of_le hfits
    refine ⟨s, _, hloop, hdrop, ?_, by simp [hdrop]⟩
    rw [hlog, htake, upToNul, List.takeWhile_eq_self_iff]
    rintro c hc
    rw [bne_iff_ne]
    rintro rfl
    exact hnul hc

/-- A process that writes two megabytes: the loop ends with half of them unread, more than fits
into the pipe, and the child is waited for. -/
theorem twoMegabytes_not_read :
    ¬ WholeOutputRead ⟨fun _ => 65536, fun _ => by decide⟩ 65536 [] (List.replicate 2097152 'a') := by
  have hlength : (List.replicate 2097152 'a').length = 2097152 := List.length_replicate
  generalize List.replicate 2097152 'a' = output at hlength ⊢
  rintro ⟨s, unread, hs, -, -, hpipe⟩
  obtain ⟨s', hloop, -⟩ := readLoop_init ⟨fun _ => 65536, fun _ => by decide⟩ [] output
  obtain ⟨-, rfl⟩ := Prod.mk.inj (Except.ok.inj (hs.symm.trans hloop))
  rw [List.length_drop, hlength] at hpipe
  exact absurd hpipe (by decide)

end Loop

/-! ## The call -/

/-- How a process has ended. -/
inductive WaitStatus where
  | exited (code : Nat)
  | signaled (signal : Nat) (pos : 0 < signal)
  deriving DecidableEq, Repr

/-- A process that `exec_follow` may start: whether it can be started, what it writes, and what
waiting for it reports, if that is possible. -/
structure ChildProcess where
  started : Bool
  output : Str
  delivery : Delivery
  ended : Option WaitStatus

/-- `subprocess_join`: the return code of the process, if it can be waited for. -/
def subprocessJoin (child : ChildProcess) : Option Nat :=
  child.ended.map fun
    | .exited code => code
    | .signaled _ _ => 1

/-- `exec_follow` with `async`: the result, `process_log` and `running`. The return code of the
process is not looked at, and `subprocess_destroy` cannot fail. -/
def execFollow (dirtyCmdRun : Bool) (child : ChildProcess) (processLog : Str) (running : Bool) :
    Except Fault (Bool × Str × Bool) :=
  if dirtyCmdRun then .ok (true, processLog, running)
  else if !child.started then .ok (false, processLog, false)
  else do
    let (s, _) ← readLoop child.delivery (.init processLog) child.output
    match subprocessJoin child with
    | none => return (false, s.processLog, running)
    | some _ => return (true, s.processLog, false)

/-- A process that is started and waited for. -/
theorem execFollow_of_ended {child : ChildProcess} {status : WaitStatus}
    (hstarted : child.started = true) (hended : child.ended = some status) (processLog : Str)
    (running : Bool) : execFollow false child processLog running =
      .ok (true, upToNul (child.output.take (dataSize - 1)), false) := by
  obtain ⟨s, hloop, hlog⟩ := readLoop_init child.delivery processLog child.output
  simp only [execFollow, hstarted, hloop, subprocessJoin, hended, ← hlog, bind, Except.bind]
  rfl

/-- **What the call returns**: whether the process could be started and waited for, or is not to be
run at all. -/
theorem execFollow_returns (dirtyCmdRun : Bool) (child : ChildProcess) (processLog : Str)
    (running : Bool) :
    ∃ processLog' running', execFollow dirtyCmdRun child processLog running =
      .ok (dirtyCmdRun || child.started && child.ended.isSome, processLog', running') := by
  rcases dirtyCmdRun with _ | _
  · rcases hstarted : child.started with _ | _
    · exact ⟨_, _, by rw [execFollow, hstarted]; rfl⟩
    · rcases hended : child.ended with _ | status
      · obtain ⟨s, hloop, -⟩ := readLoop_init child.delivery processLog child.output
        refine ⟨s.processLog, running, ?_⟩
        simp only [execFollow, hstarted, hloop, subprocessJoin, hended, bind, Except.bind]
        rfl
      · exact ⟨_, _, execFollow_of_ended hstarted hended processLog running⟩
  · exact ⟨_, _, rfl⟩

end CliInstaller
