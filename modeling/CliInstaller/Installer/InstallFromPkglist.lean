import Mathlib.Data.List.ModifyLast
import CliInstaller.General.Machine
import CliInstaller.Installer.ExecFollow

/-!
# `install_from_pkglist`: whether pacstrap has succeeded

The packages are installed by a pipeline whose last command is `tee`; in the interactive mode the
pipeline is followed by an `echo`, and the result says whether the process could be started and
waited for. So neither mode sees the exit status of pacstrap.

Source: `src/utils.cpp`, `src/follow_process_log.cpp`, `gucc/src/io_utils.cpp`.

## Main definitions

* `ShellCommand`, `ShellRun`: commands, and how a shell has run one
* `FollowState`, `followStep`: the threads of `follow_process_log_widget`
* `installFromPkglist`: the installation in both modes
* `PacstrapReported`: what its result is meant to say

## Main results

* `followInv_run`: what holds in every interleaving of the threads
* `pacstrapReported_iff`: when the result says whether pacstrap has succeeded
-/

namespace CliInstaller

open Machines

/-! ## Commands of a shell -/

/-- A simple command, a pipeline `|&` and a list `;`. -/
inductive ShellCommand where
  | simple (text : Str)
  | pipeline (first second : ShellCommand)
  | list (first second : ShellCommand)
  deriving DecidableEq, Repr

namespace ShellCommand

/-- The text of a command. -/
def text : ShellCommand → Str
  | simple text => text
  | pipeline first second => first.text ++ lit " |& " ++ second.text
  | list first second => first.text ++ lit " ; " ++ second.text

/-- The exit status, given those of the simple commands: that of the last command. -/
def status (statuses : Str → Option Nat) : ShellCommand → Option Nat
  | simple text => statuses text
  | pipeline _ second => second.status statuses
  | list _ second => second.status statuses

end ShellCommand

/-- **How `/bin/sh -c` has run a command**: the exit statuses of the simple commands that have
exited, and how the shell has ended, if it could be started and waited for. A shell that exits does
so with the status of the command. -/
structure ShellRun (command : ShellCommand) where
  statuses : Str → Option Nat
  ended : Option WaitStatus
  consistent : ∀ code, ended = some (.exited code) → command.status statuses = some code

/-- The return value of `system`. -/
def systemReturn : Option WaitStatus → Int
  | none => -1
  | some (.exited code) => code * 256
  | some (.signaled signal _) => signal

/-- `exec_checked`: `exec` with `interactive` returns the text of the return value. -/
def execChecked {command : ShellCommand} (run : ShellRun command) : Bool :=
  formatInt (systemReturn run.ended) = lit "0"

/-! ## The commands of the installation -/

/-- `"{} {} {}"` -/
def pacstrapCommand (hostcache : Bool) (mountpoint packages : Str) : Str :=
  let cmd := if hostcache then lit "pacstrap" else lit "pacstrap -c"
  cmd ++ lit " " ++ mountpoint ++ lit " " ++ packages

def teeCommand : Str := lit "tee -a /tmp/pacstrap.log"

def echoCommand : Str := lit "echo -e \"\n----------DONE----------\n\""

/-- `cmd_formatted` -/
def pkglistCommand (hostcache : Bool) (mountpoint packages : Str) : ShellCommand :=
  .pipeline (.simple (pacstrapCommand hostcache mountpoint packages)) (.simple teeCommand)

/-- What `follow_process_log_widget` makes of its arguments: an `echo` follows the command. -/
def followedArgs (cmdArgs : List Str) : List Str :=
  if 2 < cmdArgs.length ∧ cmdArgs[1]? = some (lit "-c") then
    cmdArgs.modifyLast (· ++ (lit " ; " ++ echoCommand))
  else cmdArgs

/-- The command that is followed. -/
def followedCommand (hostcache : Bool) (mountpoint packages : Str) : ShellCommand :=
  .list (pkglistCommand hostcache mountpoint packages) (.simple echoCommand)

theorem followedArgs_pkglistCommand (hostcache : Bool) (mountpoint packages : Str) :
    followedArgs [lit "/bin/sh", lit "-c", (pkglistCommand hostcache mountpoint packages).text] =
      [lit "/bin/sh", lit "-c", (followedCommand hostcache mountpoint packages).text] := by
  rw [followedArgs, if_pos ⟨by simp, rfl⟩, followedCommand, ShellCommand.text, ShellCommand.text,
    List.append_assoc]
  exact List.modifyLast_concat _ _ [lit "/bin/sh", lit "-c"]

/-! ## Following the log -/

/-- A run of the followed command, as `exec_follow` sees it. -/
structure FollowedRun (command : ShellCommand) extends ShellRun command where
  started : Bool
  output : Str
  delivery : Delivery

/-- The process of the run. -/
def FollowedRun.child {command : ShellCommand} (run : FollowedRun command) : ChildProcess where
  started := run.started
  output := run.output
  delivery := run.delivery
  ended := run.ended

/-- The process could be started and waited for. -/
def FollowedRun.followed {command : ShellCommand} (run : FollowedRun command) : Bool :=
  run.started && run.ended.isSome

/-- Where the thread that executes is. -/
inductive WorkerAt where
  /-- before the test of the loop -/
  | test
  /-- in `exec_follow` -/
  | follow
  /-- before `running` is cleared -/
  | clear
  /-- at its end -/
  | done
  deriving DecidableEq, Repr

/-- The variables of the threads, and the runs there were. -/
structure FollowState (command : ShellCommand) where
  running : Bool
  procStatus : Bool
  processLog : Str
  worker : WorkerAt
  /-- the loop of the screen has ended -/
  left : Bool
  runs : List (FollowedRun command)

/-- What happens next: a step of the thread that executes, its `exec_follow`, or the button. -/
inductive FollowInput (command : ShellCommand) where
  | worker
  | follow (run : FollowedRun command)
  | back

section Follow

variable {command : ShellCommand}

/-- The state before the threads start. -/
def FollowState.init : FollowState command where
  running := true
  procStatus := true
  processLog := []
  worker := .test
  left := false
  runs := []

/-- One step of the threads. A step that is not possible changes nothing. -/
def followStep (dirtyCmdRun : Bool) : FollowInput command → FollowState command →
    Except Fault (FollowState command)
  | .worker, s =>
    match s.worker with
    | .test => .ok { s with worker := if s.running then .follow else .done }
    | .clear => .ok { s with running := false, worker := .test }
    | .follow | .done => .ok s
  | .follow run, s =>
    match s.worker with
    -- `local_running` is a copy, so `exec_follow` does not clear `running`.
    | .follow => do
      let (followed, processLog, _) ← execFollow dirtyCmdRun run.child s.processLog s.running
      return { s with
        procStatus := s.procStatus && followed
        processLog
        worker := .clear
        runs := if dirtyCmdRun then s.runs else s.runs ++ [run] }
    | .test | .clear | .done => .ok s
  | .back, s => .ok { s with running := false, left := true }

/-- The threads. -/
def followMachine (command : ShellCommand) (dirtyCmdRun : Bool) :
    Machine (Except Fault (FollowState command)) (FollowInput command) Unit where
  step input s := ((), s.bind (followStep dirtyCmdRun input))

/-- The result of the widget, once the screen is left and the thread that executes has ended. -/
def FollowState.result (s : FollowState command) : Option Bool :=
  if s.left ∧ s.worker = .done then some s.procStatus else none

end Follow

/-- `install_from_pkglist`: `headlessRun` is how the shell runs the command in the headless mode, and
`schedule` is what happens in the interactive one. -/
def installFromPkglist (headlessMode hostcache dirtyCmdRun : Bool) (mountpoint packages : Str)
    (headlessRun : ShellRun (pkglistCommand hostcache mountpoint packages))
    (schedule : List (FollowInput (followedCommand hostcache mountpoint packages))) :
    Except Fault (Option Bool) :=
  if headlessMode then .ok (some (execChecked headlessRun))
  else do
    let s ← (followMachine _ dirtyCmdRun).run schedule (.ok .init)
    return s.result

/-! ## The threads -/

section Threads

variable {command : ShellCommand} {dirtyCmdRun : Bool} {s : FollowState command}

/-- **What holds in every interleaving**: the result is that of the runs, of which there is one at
most, and none before `exec_follow`. -/
structure FollowInv (s : FollowState command) : Prop where
  procStatus : s.procStatus = s.runs.all FollowedRun.followed
  once : s.runs.length ≤ 1
  before : s.worker = .follow → s.runs = []
  test : s.worker = .test → s.runs = [] ∨ s.running = false

theorem followInv_init : FollowInv (FollowState.init : FollowState command) where
  procStatus := rfl
  once := Nat.zero_le _
  before _ := rfl
  test _ := .inl rfl

/-- **Every step keeps it**, and none leaves the defined behaviour. -/
theorem followInv_step (input : FollowInput command) (h : FollowInv s) :
    ∃ s', followStep dirtyCmdRun input s = .ok s' ∧ FollowInv s' := by
  cases input with
  | worker =>
    rw [followStep]
    rcases hworker : s.worker with _ | _ | _ | _
    · refine ⟨_, rfl, h.procStatus, h.once, fun hfollow => ?_, fun htest => ?_⟩
      · by_cases hrunning : s.running = true
        · exact (h.test hworker).resolve_right (by simp [hrunning])
        · simp [hrunning] at hfollow
      · by_cases hrunning : s.running = true <;> simp [hrunning] at htest
    · exact ⟨s, rfl, h⟩
    · exact ⟨_, rfl, h.procStatus, h.once, nofun, fun _ => .inr rfl⟩
    · exact ⟨s, rfl, h⟩
  | follow run =>
    rw [followStep]
    rcases hworker : s.worker with _ | _ | _ | _
    · exact ⟨s, rfl, h⟩
    · obtain ⟨processLog, running, hfollow⟩ :=
        execFollow_returns dirtyCmdRun run.child s.processLog s.running
      simp only [hfollow, bind, Except.bind, pure, Except.pure]
      have hruns := h.before hworker
      have hstatus : s.procStatus = true := by rw [h.procStatus, hruns, List.all_nil]
      refine ⟨_, rfl, ?_, ?_, nofun, nofun⟩
      · cases dirtyCmdRun
        · simp [hstatus, hruns, FollowedRun.followed, FollowedRun.child]
        · simp [hstatus, hruns]
      · cases dirtyCmdRun <;> simp [hruns]
    · exact ⟨s, rfl, h⟩
    · exact ⟨s, rfl, h⟩
  | back => exact ⟨_, rfl, h.procStatus, h.once, h.before, fun _ => .inr rfl⟩

/-- **It holds in every interleaving.** -/
theorem followInv_run (schedule : List (FollowInput command)) :
    ∃ s, (followMachine command dirtyCmdRun).run schedule (.ok .init) = .ok s ∧ FollowInv s := by
  have hthroughout : (followMachine command dirtyCmdRun).Throughout
      (fun x => ∃ s, x = .ok s ∧ FollowInv s) schedule (.ok .init) :=
    Machine.Throughout.of_along (fun _ h => h)
      (fun input _ ⟨s, hs, hinv⟩ _ => hs ▸ followInv_step input hinv)
      (Machine.along_true schedule _) ⟨_, rfl, followInv_init⟩
  exact hthroughout.run

/-- **A command is run, and then the screen is left.** -/
theorem run_follow {run : FollowedRun command} {followed running : Bool} {processLog : Str}
    (hfollow : execFollow dirtyCmdRun run.child [] true = .ok (followed, processLog, running)) :
    (followMachine command dirtyCmdRun).run [.worker, .follow run, .worker, .worker, .back]
        (.ok .init) =
      .ok { running := false, procStatus := followed, processLog, worker := .done, left := true,
            runs := if dirtyCmdRun then [] else [run] } := by
  simp only [Machine.run, followMachine, Except.bind, followStep, FollowState.init, bind, hfollow]
  rfl

end Threads

/-! ## What the result says -/

/-- The exit status of pacstrap in the interactive mode, if pacstrap has been run and has exited. -/
def FollowState.statusOf {command : ShellCommand} (s : FollowState command) (text : Str) :
    Option Nat :=
  s.runs.head?.bind fun run => run.statuses text

section Result

variable {hostcache dirtyCmdRun : Bool} {mountpoint packages : Str}
  {headlessRun : ShellRun (pkglistCommand hostcache mountpoint packages)}
  {schedule : List (FollowInput (followedCommand hostcache mountpoint packages))}
  {s : FollowState (followedCommand hostcache mountpoint packages)}

/-- **The result says whether pacstrap has succeeded**: in each mode it is `true` only if pacstrap
has exited with 0, and for the same outcome of pacstrap it is the same. -/
structure PacstrapReported (dirtyCmdRun : Bool)
    (headlessRun : ShellRun (pkglistCommand hostcache mountpoint packages))
    (schedule : List (FollowInput (followedCommand hostcache mountpoint packages)))
    (s : FollowState (followedCommand hostcache mountpoint packages)) : Prop where
  headless : installFromPkglist true hostcache dirtyCmdRun mountpoint packages headlessRun schedule =
      .ok (some true) →
    headlessRun.statuses (pacstrapCommand hostcache mountpoint packages) = some 0
  interactive : installFromPkglist false hostcache dirtyCmdRun mountpoint packages headlessRun
      schedule = .ok (some true) →
    s.statusOf (pacstrapCommand hostcache mountpoint packages) = some 0
  agree : headlessRun.statuses (pacstrapCommand hostcache mountpoint packages) =
      s.statusOf (pacstrapCommand hostcache mountpoint packages) →
    installFromPkglist true hostcache dirtyCmdRun mountpoint packages headlessRun schedule =
      installFromPkglist false hostcache dirtyCmdRun mountpoint packages headlessRun schedule

/-- The shell has exited, and `tee` did so with 0. -/
def TeeSucceeds (headlessRun : ShellRun (pkglistCommand hostcache mountpoint packages)) : Prop :=
  (∃ code, headlessRun.ended = some (.exited code)) ∧ headlessRun.statuses teeCommand = some 0

theorem systemReturn_eq_zero_iff {ended : Option WaitStatus} :
    systemReturn ended = 0 ↔ ended = some (.exited 0) := by
  rcases ended with _ | code | ⟨signal, hpos⟩
  · exact iff_of_false (by decide) (by simp)
  · simp only [systemReturn, Option.some.injEq, WaitStatus.exited.injEq]
    omega
  · simp only [systemReturn, Int.natCast_eq_zero, Option.some.injEq, reduceCtorEq, iff_false]
    omega

/-- **The headless result is that of `tee`.** -/
theorem execChecked_iff : execChecked headlessRun = true ↔ TeeSucceeds headlessRun := by
  rw [execChecked, decide_eq_true_iff, show lit "0" = formatInt 0 by decide +kernel,
    formatInt_injective.eq_iff, systemReturn_eq_zero_iff]
  constructor
  · intro hended
    exact ⟨⟨0, hended⟩, headlessRun.consistent 0 hended⟩
  · rintro ⟨⟨code, hended⟩, htee⟩
    -- The status of the pipeline is that of its last command.
    have hcode : headlessRun.statuses teeCommand = some code := headlessRun.consistent code hended
    rw [hended, Option.some.inj (htee.symm.trans hcode)]

/-- **When the result says whether pacstrap has succeeded**: when it has, or what is looked at fails
too; and when both modes look at the same success. -/
theorem pacstrapReported_iff
    (hrun : (followMachine _ dirtyCmdRun).run schedule (.ok .init) = .ok s)
    (hleft : s.left = true ∧ s.worker = .done) :
    PacstrapReported dirtyCmdRun headlessRun schedule s ↔
      (TeeSucceeds headlessRun →
          headlessRun.statuses (pacstrapCommand hostcache mountpoint packages) = some 0) ∧
        ((∀ run ∈ s.runs, run.followed = true) →
          s.statusOf (pacstrapCommand hostcache mountpoint packages) = some 0) ∧
        (headlessRun.statuses (pacstrapCommand hostcache mountpoint packages) = some 0 →
          s.statusOf (pacstrapCommand hostcache mountpoint packages) = some 0 →
          (TeeSucceeds headlessRun ↔ ∀ run ∈ s.runs, run.followed = true)) := by
  obtain ⟨s', hs', hinv⟩ := @followInv_run _ dirtyCmdRun schedule
  obtain rfl := Except.ok.inj (hs'.symm.trans hrun)
  have hheadless : installFromPkglist true hostcache dirtyCmdRun mountpoint packages headlessRun
      schedule = .ok (some (execChecked headlessRun)) := rfl
  have hinteractive : installFromPkglist false hostcache dirtyCmdRun mountpoint packages headlessRun
      schedule = .ok (some (s'.runs.all FollowedRun.followed)) := by
    simp only [installFromPkglist, hrun, bind, Except.bind, FollowState.result, if_pos hleft,
      hinv.procStatus]
    rfl
  have hall : s'.runs.all FollowedRun.followed = true ↔ ∀ run ∈ s'.runs, run.followed = true :=
    List.all_eq_true
  rw [← hall, ← execChecked_iff]
  constructor
  · rintro ⟨hh, hi, hagree⟩
    rw [hheadless] at hh hagree
    rw [hinteractive] at hi hagree
    refine ⟨fun htee => hh (by rw [htee]), fun hfollowed => hi (by rw [hfollowed]), ?_⟩
    intro hpacstrap hpacstrap'
    rw [← Bool.eq_iff_iff]
    simpa using hagree (hpacstrap.trans hpacstrap'.symm)
  · rintro ⟨hh, hi, hboth⟩
    refine ⟨fun htrue => hh ?_, fun htrue => hi ?_, fun hsame => ?_⟩
    · rw [hheadless] at htrue
      simpa using htrue
    · rw [hinteractive] at htrue
      simpa using htrue
    · rw [hheadless, hinteractive]
      by_cases hpacstrap : headlessRun.statuses
          (pacstrapCommand hostcache mountpoint packages) = some 0
      · rw [Bool.eq_iff_iff.mpr (hboth hpacstrap (hsame ▸ hpacstrap))]
      · rw [Bool.eq_false_iff.mpr (mt hh hpacstrap),
          Bool.eq_false_iff.mpr (mt hi (hsame ▸ hpacstrap))]

end Result

/-! ## A package that is not found -/

/-- pacstrap exits with a status, and every other command with 0. -/
def pacstrapStatuses (status : Nat) (text : Str) : Option Nat :=
  if text = pacstrapCommand true (lit "/mnt") (lit "linux") then some status else some 0

theorem pacstrapStatuses_of_ne {status : Nat} {text : Str}
    (h : text ≠ pacstrapCommand true (lit "/mnt") (lit "linux")) :
    pacstrapStatuses status text = some 0 := if_neg h

/-- The shell runs the pipeline, and exits with the status of `tee`. -/
def headlessSample (status : Nat) :
    ShellRun (pkglistCommand true (lit "/mnt") (lit "linux")) where
  statuses := pacstrapStatuses status
  ended := some (.exited 0)
  consistent := by
    rintro code ⟨⟩
    exact pacstrapStatuses_of_ne (by decide +kernel)

/-- The shell runs the list, and exits with the status of `echo`. -/
def followedSample (status : Nat) :
    FollowedRun (followedCommand true (lit "/mnt") (lit "linux")) where
  statuses := pacstrapStatuses status
  ended := some (.exited 0)
  consistent := by
    rintro code ⟨⟩
    exact pacstrapStatuses_of_ne (by decide +kernel)
  started := true
  output := []
  delivery := ⟨fun _ => 1, fun _ => Nat.one_pos⟩

/-- The command is run, and then the screen is left. -/
def scheduleSample (status : Nat) :
    List (FollowInput (followedCommand true (lit "/mnt") (lit "linux"))) :=
  [.worker, .follow (followedSample status), .worker, .worker, .back]

/-- The state at the end. -/
def stateSample (status : Nat) : FollowState (followedCommand true (lit "/mnt") (lit "linux")) where
  running := false
  procStatus := true
  processLog := []
  worker := .done
  left := true
  runs := [followedSample status]

theorem run_scheduleSample (status : Nat) :
    (followMachine _ false).run (scheduleSample status) (.ok .init) = .ok (stateSample status) := by
  have hends := @execFollow_of_ended (followedSample status).child (.exited 0) rfl rfl [] true
  rw [show (followedSample status).child.output = [] from rfl, List.take_nil] at hends
  exact run_follow hends

theorem pacstrapReported_iff_succeeds :
    PacstrapReported false (headlessSample 0) (scheduleSample 0) (stateSample 0) ↔
      (TeeSucceeds (headlessSample 0) →
          (headlessSample 0).statuses (pacstrapCommand true (lit "/mnt") (lit "linux")) = some 0) ∧
        ((∀ run ∈ (stateSample 0).runs, run.followed = true) →
          (stateSample 0).statusOf (pacstrapCommand true (lit "/mnt") (lit "linux")) = some 0) ∧
        ((headlessSample 0).statuses (pacstrapCommand true (lit "/mnt") (lit "linux")) = some 0 →
          (stateSample 0).statusOf (pacstrapCommand true (lit "/mnt") (lit "linux")) = some 0 →
          (TeeSucceeds (headlessSample 0) ↔
            ∀ run ∈ (stateSample 0).runs, run.followed = true)) :=
  pacstrapReported_iff (run_scheduleSample 0) ⟨rfl, rfl⟩

/-- pacstrap exits with 1, and both modes return `true`. -/
theorem pacstrap_fails_unseen :
    installFromPkglist true true false (lit "/mnt") (lit "linux") (headlessSample 1)
        (scheduleSample 1) = .ok (some true) ∧
      installFromPkglist false true false (lit "/mnt") (lit "linux") (headlessSample 1)
        (scheduleSample 1) = .ok (some true) ∧
      ¬ PacstrapReported false (headlessSample 1) (scheduleSample 1) (stateSample 1) := by
  have hheadless : installFromPkglist true true false (lit "/mnt") (lit "linux") (headlessSample 1)
      (scheduleSample 1) = .ok (some true) := by
    rw [installFromPkglist, if_pos rfl, execChecked_iff.mpr ⟨⟨0, rfl⟩, ?_⟩]
    exact pacstrapStatuses_of_ne (by decide +kernel)
  have hinteractive : installFromPkglist false true false (lit "/mnt") (lit "linux")
      (headlessSample 1) (scheduleSample 1) = .ok (some true) := by
    rw [installFromPkglist, if_neg Bool.false_ne_true, run_scheduleSample]
    rfl
  refine ⟨hheadless, hinteractive, fun hreported => ?_⟩
  have hone : (headlessSample 1).statuses (pacstrapCommand true (lit "/mnt") (lit "linux")) =
      some 1 := if_pos rfl
  cases hone.symm.trans (hreported.headless hheadless)

end CliInstaller
