import CliInstaller.Installer.TakenPartitions

/-!
# The boot step of `mount_partitions`

The loop over the additional partitions has two exits: the user chooses "Done", and the boot step
follows; or the number of partitions reaches zero, and the function returns without it. The number
goes down with each partition that leaves the list.

## Main definitions

* `onTurn`: the steps that a run executes
* `CalledOnce`: the functions of the boot step were executed once
* `Answered`: the root step succeeds, and the menus of the loop are answered
* `CounterKept`, `CounterLasts`: the number stays above zero in a step

## Main results

* `calledOnce_iff`: when a run executes the functions once, from any state
* `espOnce_iff`: when `mount_partitions` does
-/

namespace CliInstaller

open Machines Sorting

/-- The step is the next one, so its answers are read. -/
def onTurn (step : MountStep) (s : MountRun) : Bool := step.phase = s.phase

/-- `make_esp`, `get_cryptroot` and `get_cryptboot` were executed once each. -/
def CalledOnce (m : Mounting) : Prop := ∀ call : BootCall, m.bootCalls.count call = 1

/-- The menu is answered by "Done", or by a partition that is then mounted. -/
def AdditionalReplies.Answered (replies : AdditionalReplies) (settings : MountSettings) : Prop :=
  (∃ n, replies.selected = some n ∧
      menuAnswer (lit "Done -" :: settings.list.partitions) n = .ok (lit "Done")) ∨
    ∃ device mount, replies.Takes settings device mount

/-- Of the steps that are executed, the root step succeeds, the menus of the loop are answered, and
no step ends the program. -/
def Answered (S : Sorter Partition) (devices : Devices) (step : MountStep) (s : MountRun) : Prop :=
  onTurn step s = true →
    match step with
    | .root replies => (rootStep S devices replies s.toMounting).map Prod.fst = .ok .swap
    | .swap replies => (swapStep replies s.toMounting).isOk = true
    | .additional replies => replies.Answered s.settings
    | .esp replies => (espStep replies s.toMounting).isOk = true

/-- The number of partitions without one more. -/
def PartitionSettings.oneLess (list : PartitionSettings) : Int := int32 (list.numberPartitions - 1)

/-- The number of partitions is above zero after the swap step; and after an additional partition
that `mount` lists. -/
def CounterKept (step : MountStep) (s : MountRun) : Prop :=
  match step with
  | .swap replies =>
    ((∃ device, replies.Takes s.settings.list device) → 0 < s.settings.list.oneLess) ∧
      ((∀ device, ¬ replies.Takes s.settings.list device) → 0 < s.settings.list.numberPartitions)
  | .additional replies =>
    (∃ device mount, replies.Takes s.settings device mount) → replies.current.isMounted = true →
      0 < s.settings.list.oneLess
  | _ => True

/-- The step is not executed, or the number stays above zero. -/
def CounterLasts (step : MountStep) (s : MountRun) : Prop :=
  onTurn step s = true → CounterKept step s

theorem exists_of_isOk {α : Type} {result : Except Fault α} (h : result.isOk = true) :
    ∃ x, result = .ok x := by
  cases result with
  | error fault => cases h
  | ok x => exact ⟨x, rfl⟩

theorem exists_of_map_fst {α β : Type} {result : Except Fault (α × β)} {x : α}
    (h : result.map Prod.fst = .ok x) : ∃ y, result = .ok (x, y) := by
  cases result with
  | error fault => cases h
  | ok pair => exact ⟨pair.2, congrArg Except.ok (Prod.ext (Except.ok.inj h) rfl)⟩

section Steps

variable {S : Sorter Partition} {devices : Devices} {m : Mounting}

/-- What the swap step leaves of the number. -/
theorem swapStep_cases {replies : SwapReplies} {phase : Phase} {m' : Mounting}
    (h : swapStep replies m = .ok (phase, m')) :
    phase = loopPhase m' ∧
      (((∃ device, replies.Takes m.settings.list device) ∧
          m'.settings.list.numberPartitions = m.settings.list.oneLess) ∨
        ((∀ device, ¬ replies.Takes m.settings.list device) ∧
          m'.settings.list.numberPartitions = m.settings.list.numberPartitions)) := by
  obtain ⟨⟨swapPartition, list'⟩, hmake, hrest⟩ := bind_eq_ok.mp h
  obtain ⟨rfl, rfl⟩ := Prod.mk.inj (Except.ok.inj hrest)
  refine ⟨rfl, ?_⟩
  by_cases htakes : ∃ device, replies.Takes m.settings.list device
  · obtain ⟨device, htakes⟩ := htakes
    rw [makeSwap_of_takes htakes] at hmake
    obtain ⟨-, rfl⟩ := Prod.mk.inj (Except.ok.inj hmake)
    exact .inl ⟨⟨device, htakes⟩, rfl⟩
  · refine .inr ⟨not_exists.mp htakes, ?_⟩
    rcases hselected : replies.selected with _ | n
    · rw [makeSwap, hselected] at hmake
      obtain ⟨-, rfl⟩ := Prod.mk.inj (Except.ok.inj hmake)
      rfl
    · rcases hanswer : menuAnswer (swapHeaders replies.rootFilesystem ++ m.settings.list.partitions)
        n with fault | device
      · simp [makeSwap, hselected, hanswer, bind, Except.bind] at hmake
      · obtain ⟨swapPartition', list'', hmake', hcases⟩ := makeSwap_answer hselected hanswer
        rw [if_neg fun huses => htakes ⟨device, n, hselected, hanswer, huses⟩] at hcases
        obtain ⟨rfl, rfl⟩ := Prod.mk.inj (Except.ok.inj (hmake.symm.trans hmake'))
        exact hcases.2.number

/-- What a round of the loop leaves of the number. -/
theorem additionalMounted_number {replies : AdditionalReplies} {device mount : Str}
    {fs : FilesystemSettings} :
    (additionalMounted devices replies device mount fs m).settings.list.numberPartitions =
      if replies.current.isMounted then m.settings.list.oneLess
      else m.settings.list.numberPartitions := by
  rw [additionalMounted_list, confirmMount]
  cases replies.current.isMounted <;> rfl

/-- Choosing "Done" leads to the boot step. -/
theorem additionalStep_done {replies : AdditionalReplies} {n : Nat}
    (hselected : replies.selected = some n)
    (hanswer : menuAnswer (lit "Done -" :: m.settings.list.partitions) n = .ok (lit "Done")) :
    additionalStep devices replies m = .ok (.esp, { m with settings := { m.settings with
      list := { m.settings.list with partition := lit "Done" } } }) := by
  rw [additionalStep, hselected]
  simp only [hanswer, bind, Except.bind, pure, Except.pure, if_true]

/-- A partition that is mounted is not called "Done". -/
theorem AdditionalReplies.Takes.not_done {replies : AdditionalReplies} {settings : MountSettings}
    {device mount : Str} (h : replies.Takes settings device mount) {n : Nat}
    (hselected : replies.selected = some n) :
    menuAnswer (lit "Done -" :: settings.list.partitions) n ≠ .ok (lit "Done") := by
  obtain ⟨⟨n', hn', hanswer⟩, hdone, -⟩ := h
  obtain rfl := Option.some.inj (hselected.symm.trans hn')
  rw [hanswer]
  exact fun heq => hdone (Except.ok.inj heq)

theorem loopPhase_of_pos (h : 0 < m.settings.list.numberPartitions) :
    loopPhase m = .additional := if_pos h

theorem loopPhase_of_not_pos (h : ¬ 0 < m.settings.list.numberPartitions) :
    loopPhase m = .finished := if_neg h

end Steps

/-! ## Runs -/

section Runs

variable {S : Sorter Partition} {devices : Devices} {steps : List MountStep} {s : MountRun}

theorem onTurn_iff {step : MountStep} : onTurn step s = true ↔ step.phase = s.phase := by
  simp [onTurn]

theorem step_of_on_turn {step : MountStep} {phase : Phase} {m : Mounting}
    (h : onTurn step s = true) (hstep : step.apply S devices s.toMounting = .ok (phase, m)) :
    ((mountPartitions S devices).step step s).2 = ⟨m, phase⟩ := by
  rw [mountPartitions_step (onTurn_iff.mp h), hstep]
  rfl

theorem step_of_off_turn {step : MountStep} (h : onTurn step s = false) :
    ((mountPartitions S devices).step step s).2 = s := by
  rw [mountPartitions_step_of_ne (by simpa [onTurn] using h)]

/-- After the return nothing is executed. -/
theorem finished_run (h : s.phase = .finished) :
    (mountPartitions S devices).run steps s = s ∧
      (mountPartitions S devices).Along CounterLasts steps s := by
  induction steps with
  | nil => exact ⟨rfl, trivial⟩
  | cons step steps ih =>
    have hoff : onTurn step s = false := by
      rw [onTurn, h]
      cases step <;> rfl
    rw [Machine.run, Machine.along_cons, step_of_off_turn hoff]
    refine ⟨ih.1, fun hon => ?_, ih.2⟩
    rw [hoff] at hon
    cases hon

/-- The root, the swap and the additional partitions make no boot step. -/
theorem bootCalls_of_apply {step : MountStep} {m m' : Mounting} {phase : Phase}
    (h : step.apply S devices m = .ok (phase, m')) (hesp : step.phase ≠ .esp) :
    m'.bootCalls = m.bootCalls := by
  cases step with
  | root replies =>
    rcases rootStep_takes_or_idle S devices replies m with ⟨selection, -, hstep⟩ | ⟨-, hidle⟩
    · obtain ⟨-, rfl⟩ := Prod.mk.inj (Except.ok.inj (hstep.symm.trans h))
      simp [rootMounted]
    · exact (hidle phase m' h).1.bootCalls
  | swap replies =>
    rcases swapStep_takes_or_idle replies m with ⟨device, -, hstep⟩ | ⟨-, hidle⟩
    · obtain ⟨-, rfl⟩ := Prod.mk.inj (Except.ok.inj (hstep.symm.trans h))
      simp [swapMounted]
    · exact (hidle phase m' h).1.bootCalls
  | additional replies =>
    rcases additionalStep_takes_or_idle devices replies m with
      ⟨device, mount, fs, -, hstep⟩ | ⟨-, hidle⟩
    · obtain ⟨-, rfl⟩ := Prod.mk.inj (Except.ok.inj (hstep.symm.trans h))
      simp [additionalMounted]
    · exact (hidle phase m' h).1.bootCalls
  | esp replies => exact absurd rfl hesp

/-- `make_esp` is executed, whatever is answered. -/
theorem makeEsp_bootCalls {replies : EspReplies} {m m' : Mounting} (h : makeEsp replies m = .ok m') :
    m'.bootCalls = m.bootCalls ++ [.makeEsp] := by
  unfold makeEsp at h
  extract_lets m₀ at h
  have hcalls : m₀.bootCalls = m.bootCalls ++ [.makeEsp] := rfl
  rw [← hcalls]
  split at h
  · obtain rfl := Except.ok.inj h
    rfl
  split at h
  · obtain rfl := Except.ok.inj h
    rfl
  obtain ⟨answer, -, h⟩ := bind_eq_ok.mp h
  dsimp only at h
  split at h
  · obtain rfl := Except.ok.inj h
    rfl
  split at h
  · cases h
  · obtain rfl := Except.ok.inj h
    rfl

/-- **The boot step** is the last one, and executes each of its functions once. -/
theorem espStep_calls {replies : EspReplies} {m m' : Mounting} {phase : Phase}
    (h : espStep replies m = .ok (phase, m')) :
    phase = .finished ∧
      m'.bootCalls = m.bootCalls ++ [.makeEsp, .getCryptroot, .getCryptboot] := by
  obtain ⟨m₁, hesp, hrest⟩ := bind_eq_ok.mp h
  obtain ⟨rfl, rfl⟩ := Prod.mk.inj (Except.ok.inj hrest)
  refine ⟨rfl, ?_⟩
  simp [Mounting.getCryptboot, Mounting.getCryptroot, makeEsp_bootCalls hesp]

/-- Where the loop is tested: it goes on, or the function returns without the boot step. -/
theorem loop_iff {m : Mounting} (hcalls : m.bootCalls = [])
    (ih : ∀ {s : MountRun}, s.phase ≠ .finished → s.bootCalls = [] →
      (s.phase = .additional → 0 < s.settings.list.numberPartitions) →
        (mountPartitions S devices).Along (Answered S devices) steps s →
          ((mountPartitions S devices).run steps s).phase = .finished →
            (CalledOnce ((mountPartitions S devices).run steps s).toMounting ↔
              (mountPartitions S devices).Along CounterLasts steps s))
    (hanswered : (mountPartitions S devices).Along (Answered S devices) steps ⟨m, loopPhase m⟩)
    (hreturns : ((mountPartitions S devices).run steps ⟨m, loopPhase m⟩).phase = .finished) :
    CalledOnce ((mountPartitions S devices).run steps ⟨m, loopPhase m⟩).toMounting ↔
      0 < m.settings.list.numberPartitions ∧
        (mountPartitions S devices).Along CounterLasts steps ⟨m, loopPhase m⟩ := by
  by_cases hpos : 0 < m.settings.list.numberPartitions
  · rw [and_iff_right hpos]
    refine ih ?_ hcalls (fun _ => hpos) hanswered hreturns
    simp [loopPhase_of_pos hpos]
  · have hrun := (@finished_run S devices steps ⟨m, loopPhase m⟩ (loopPhase_of_not_pos hpos)).1
    refine iff_of_false (fun honce => ?_) fun h => hpos h.1
    have hcount := honce .makeEsp
    rw [hrun, hcalls] at hcount
    cases hcount

/-- What the swap step must leave of the number. -/
theorem counterKept_swap_iff {replies : SwapReplies} {m : Mounting}
    (hstep : swapStep replies s.toMounting = .ok (loopPhase m, m)) :
    CounterKept (.swap replies) s ↔ 0 < m.settings.list.numberPartitions := by
  rcases (swapStep_cases hstep).2 with ⟨htakes, hnumber⟩ | ⟨htakes, hnumber⟩
  · rw [hnumber]
    exact ⟨fun h => h.1 htakes,
      fun h => ⟨fun _ => h, fun hno => absurd htakes (not_exists.mpr hno)⟩⟩
  · rw [hnumber]
    exact ⟨fun h => h.2 htakes,
      fun h => ⟨fun hyes => absurd hyes (not_exists.mpr htakes), fun _ => h⟩⟩

/-- What a round of the loop must leave of the number. -/
theorem counterKept_additional_iff {replies : AdditionalReplies} {device mount : Str}
    {fs : FilesystemSettings} (htakes : replies.Takes s.settings device mount)
    (hcount : 0 < s.settings.list.numberPartitions) :
    CounterKept (.additional replies) s ↔ 0 < (additionalMounted devices replies device mount fs
      s.toMounting).settings.list.numberPartitions := by
  rw [additionalMounted_number]
  split_ifs with hmounted
  · exact ⟨fun h => h ⟨device, mount, htakes⟩ hmounted, fun h _ _ => h⟩
  -- The partition stays in the list, and the number is as the test of the loop saw it.
  · exact ⟨fun _ => hcount, fun _ _ hm => absurd hm hmounted⟩

/-- **When a run executes the functions once**, from any state before them. -/
theorem calledOnce_iff (hrunning : s.phase ≠ .finished) (hcalls : s.bootCalls = [])
    (hcounted : s.phase = .additional → 0 < s.settings.list.numberPartitions)
    (hanswered : (mountPartitions S devices).Along (Answered S devices) steps s)
    (hreturns : ((mountPartitions S devices).run steps s).phase = .finished) :
    CalledOnce ((mountPartitions S devices).run steps s).toMounting ↔
      (mountPartitions S devices).Along CounterLasts steps s := by
  induction steps generalizing s with
  | nil => exact absurd hreturns hrunning
  | cons step steps ih =>
    obtain ⟨hnow, hlater⟩ := hanswered
    rw [Machine.run] at hreturns ⊢
    rw [Machine.along_cons]
    cases honTurn : onTurn step s with
    | false =>
      rw [step_of_off_turn honTurn] at hlater hreturns ⊢
      rw [ih hrunning hcalls hcounted hlater hreturns]
      exact (and_iff_right fun hon => by rw [honTurn] at hon; cases hon).symm
    | true =>
      have hanswer := hnow honTurn
      have hguard : CounterLasts step s ↔ CounterKept step s :=
        ⟨fun h => h honTurn, fun h _ => h⟩
      rw [hguard]
      cases step with
      | root replies =>
        obtain ⟨m, hstep⟩ := exists_of_map_fst hanswer
        have hkept : m.bootCalls = [] :=
          (@bootCalls_of_apply S devices (.root replies) _ _ _ hstep (by simp [MountStep.phase])).trans
            hcalls
        rw [step_of_on_turn honTurn hstep] at hlater hreturns ⊢
        rw [ih (by simp) hkept (by simp) hlater hreturns]
        exact (and_iff_right trivial).symm
      | swap replies =>
        obtain ⟨⟨phase, m⟩, hstep⟩ := exists_of_isOk hanswer
        obtain rfl := (swapStep_cases hstep).1
        have hkept : m.bootCalls = [] :=
          (@bootCalls_of_apply S devices (.swap replies) _ _ _ hstep (by simp [MountStep.phase])).trans
            hcalls
        rw [step_of_on_turn honTurn hstep] at hlater hreturns ⊢
        rw [counterKept_swap_iff hstep]
        exact loop_iff hkept ih hlater hreturns
      | additional replies =>
        rcases hanswer with ⟨n, hselected, hdone⟩ | ⟨device, mount, htakes⟩
        · have hstep := @additionalStep_done devices _ _ _ hselected hdone
          rw [step_of_on_turn honTurn hstep] at hlater hreturns ⊢
          refine Iff.trans (ih ?_ ?_ ?_ hlater hreturns) (and_iff_right ?_).symm
          · simp
          · exact hcalls
          · simp
          · rintro ⟨device, mount, htakes⟩
            exact absurd hdone (htakes.not_done hselected)
        · obtain ⟨fs, hstep⟩ := @additionalStep_of_takes devices _ _ _ _ htakes
          have hcount := hcounted (onTurn_iff.mp honTurn).symm
          have hkept := @bootCalls_of_apply S devices (.additional replies) _ _ _ hstep
            (by simp [MountStep.phase])
          rw [step_of_on_turn honTurn hstep] at hlater hreturns ⊢
          rw [counterKept_additional_iff htakes hcount]
          exact loop_iff (hkept.trans hcalls) ih hlater hreturns
      | esp replies =>
        obtain ⟨⟨phase, m⟩, hstep⟩ := exists_of_isOk hanswer
        obtain ⟨rfl, hboot⟩ := espStep_calls hstep
        rw [step_of_on_turn honTurn hstep]
        obtain ⟨hrun, hlasts⟩ := @finished_run S devices steps ⟨m, .finished⟩ rfl
        rw [hrun]
        refine iff_of_true (fun call => ?_) ⟨trivial, hlasts⟩
        have hall : m.bootCalls = [.makeEsp, .getCryptroot, .getCryptboot] := by
          rw [hboot]
          exact congrArg (· ++ _) hcalls
        show m.bootCalls.count call = 1
        rw [hall]
        cases call <;> rfl

end Runs

/-- **`mount_partitions` executes `make_esp`, `get_cryptroot` and `get_cryptboot` once each**, iff the
number of partitions stays above zero until "Done" is chosen. -/
theorem espOnce_iff (S : Sorter Partition) (devices : Devices) (settings : MountSettings)
    (steps : List MountStep)
    (hanswered : (mountPartitions S devices).Along (Answered S devices) steps (.start settings))
    (hreturns : ((mountPartitions S devices).run steps (.start settings)).phase = .finished) :
    (∀ call : BootCall,
        ((mountPartitions S devices).run steps (.start settings)).bootCalls.count call = 1) ↔
      (mountPartitions S devices).Along CounterLasts steps (.start settings) := by
  refine calledOnce_iff ?_ rfl ?_ hanswered hreturns
  · simp [MountRun.start]
  · intro hphase
    cases hphase

/-- The line is taken as boot partition, at the first mountpoint. -/
def EspReplies.keep (selected : Nat) : EspReplies where
  selected := some selected
  mountSelected := some 0
  mounted := true
  isMounted := true
  partFs := lit "vfat"
  partUuid := []
  cryptroot := ⟨false, [], false, [], [], [], [], [], [], []⟩
  cryptboot := ⟨false, false, [], [], [], [], false⟩

/-- The first line as root, no swap, and the second line as boot partition. -/
def usualSteps : List MountStep :=
  [.root (.keep 0 ⟨true, true, []⟩), .swap (.keep 0), .additional (.keep 0 [] ⟨true, true, []⟩),
    .esp (.keep 1)]

theorem espOnce_usual :
    (∀ call : BootCall, ((mountPartitions .stable plainDevices).run usualSteps
        (.start twoPartitions)).bootCalls.count call = 1) ↔
      (mountPartitions .stable plainDevices).Along CounterLasts usualSteps
        (.start twoPartitions) := by
  refine espOnce_iff .stable plainDevices twoPartitions usualSteps ?_ (by decide +kernel)
  refine ⟨fun _ => ?_, fun _ => ?_, fun _ => .inl ⟨0, rfl, ?_⟩, fun _ => ?_, trivial⟩
  all_goals decide +kernel

/-- The second line at `/boot`, and the root once more at `/home`. -/
def bothAsAdditional : List MountStep :=
  [.root (.keep 0 ⟨true, true, []⟩), .swap (.keep 0),
    .additional (.keep 2 (lit "/boot") ⟨true, true, []⟩),
    .additional (.keep 1 (lit "/home") ⟨true, true, []⟩)]

/-- Every partition is taken, and the function returns without the boot step. -/
theorem mountPartitions_no_esp :
    ((mountPartitions .stable plainDevices).run bothAsAdditional (.start twoPartitions)).phase =
        .finished ∧
      ((mountPartitions .stable plainDevices).run bothAsAdditional
        (.start twoPartitions)).bootCalls = [] ∧
      ¬ ∀ S devices settings steps, settings.system = lit "UEFI" →
        (mountPartitions S devices).Along (Answered S devices) steps (.start settings) →
          ((mountPartitions S devices).run steps (.start settings)).phase = .finished →
            ∀ call : BootCall, ((mountPartitions S devices).run steps
              (.start settings)).bootCalls.count call = 1 := by
  have hreturns : ((mountPartitions .stable plainDevices).run bothAsAdditional
      (.start twoPartitions)).phase = .finished := by
    decide +kernel
  have hnone : ((mountPartitions .stable plainDevices).run bothAsAdditional
      (.start twoPartitions)).bootCalls = [] := by
    decide +kernel
  refine ⟨hreturns, hnone, fun h => ?_⟩
  have honce := h .stable plainDevices twoPartitions bothAsAdditional rfl ?_ hreturns .makeEsp
  · rw [hnone] at honce
    cases honce
  · refine ⟨fun _ => ?_, fun _ => ?_, fun _ => .inr ⟨lit "/dev/sda2", lit "/boot",
      ⟨2, rfl, ?_⟩, ?_, ?_, ?_⟩, fun _ => .inr ⟨lit "/dev/sda1", lit "/home",
      ⟨1, rfl, ?_⟩, ?_, ?_, ?_⟩, trivial⟩
    all_goals decide +kernel

end CliInstaller
