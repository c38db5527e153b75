import CliInstaller.Installer.MountSteps

/-!
# Partitions that are taken

A step takes the partition it used off the list. The root stays on it, and is offered as swap, as
an additional partition and as boot partition; and so does an additional partition that `mount`
does not list afterwards, although it is in the schema.

## Main definitions

* `MountRun.offered`: the partitions of the menu that is shown
* `Fresh`: none of the schema is offered, and the schema has no device twice
* `TakesOffList`: the condition on a step
* `Invariant`: the list and the schema are apart

## Main results

* `Invariant.next`, `takesOffList_of_fresh`: one step
* `mountPartitions_fresh_iff`: a run
-/

namespace CliInstaller

open Machines Sorting

/-- The partitions of the menu that is shown. -/
def MountRun.offered (s : MountRun) : List Str :=
  match s.phase with
  | .finished => []
  | .esp => if s.settings.system = lit "UEFI" then s.settings.list.partitions else []
  | _ => s.settings.list.partitions

/-- **No partition of the schema is offered again**, and their devices are distinct. -/
structure Fresh (s : MountRun) : Prop where
  notOffered : ∀ part ∈ s.schema, ∀ x ∈ s.offered, firstWord x ≠ .ok part.device
  distinct : (s.schema.map Partition.device).Nodup

/-- The step takes no partition as root, and the additional partition it takes is listed by `mount`
once it is mounted. -/
def TakesOffList (step : MountStep) (s : MountRun) : Prop :=
  match step with
  | .root replies => s.phase = .root → ∀ device, ¬ replies.Takes s.settings device
  | .additional replies => s.phase = .additional →
    ∀ device mount, replies.Takes s.settings device mount → replies.current.isMounted = true
  | .swap _ => True
  | .esp _ => True

/-! ## The list and the schema -/

/-- No line of the list is for a device of the schema. -/
structure Apart (m : Mounting) : Prop where
  notListed : ∀ part ∈ m.schema, ∀ x ∈ m.settings.list.partitions, firstWord x ≠ .ok part.device
  distinct : (m.schema.map Partition.device).Nodup

/-- What the steps keep that take what they use off the list. -/
structure Invariant (s : MountRun) : Prop where
  apart : s.phase ≠ .finished → Apart s.toMounting
  distinct : (s.schema.map Partition.device).Nodup
  counted : s.phase = .additional → 0 < s.settings.list.numberPartitions

theorem mem_of_menuAnswer {entries : List Str} {n : Nat} {device : Str}
    (h : menuAnswer entries n = .ok device) : ∃ x ∈ entries, firstWord x = .ok device := by
  unfold menuAnswer at h
  rcases hentry : entries[n]? with _ | x
  · simp [hentry] at h
  · exact ⟨x, List.mem_of_getElem? hentry, by simpa [hentry] using h⟩

theorem firstWord_done : firstWord (lit "Done -") = .ok (lit "Done") := by decide +kernel

theorem Invariant.fresh {s : MountRun} (h : Invariant s) : Fresh s := by
  refine ⟨?_, h.distinct⟩
  intro part hpart x hx
  have hrunning : s.phase ≠ .finished := by
    intro hphase
    rw [MountRun.offered, hphase] at hx
    exact List.not_mem_nil hx
  refine (h.apart hrunning).notListed part hpart x ?_
  unfold MountRun.offered at hx
  split at hx
  · exact absurd ‹_› hrunning
  · split_ifs at hx
    · exact hx
    · exact absurd hx List.not_mem_nil
  · exact hx

section Apart

variable {m m' : Mounting} {part : Partition}

/-- A device of the list is new to the schema. -/
theorem Apart.nodup_append (h : Apart m)
    (hlisted : ∃ x ∈ m.settings.list.partitions, firstWord x = .ok part.device)
    (hschema : m'.schema = m.schema ++ [part]) : (m'.schema.map Partition.device).Nodup := by
  obtain ⟨line, hline, hdevice⟩ := hlisted
  rw [hschema, List.map_append, List.map_singleton, List.nodup_append]
  refine ⟨h.distinct, List.nodup_singleton _, ?_⟩
  intro device hmem device' hdevice' heq
  obtain ⟨p, hp, rfl⟩ := List.mem_map.mp hmem
  rw [List.mem_singleton] at hdevice'
  exact h.notListed p hp line hline (by rw [hdevice, heq, hdevice'])

/-- A device of the list joins the schema, and what contains its name leaves the list. -/
theorem Apart.append (h : Apart m)
    (hlisted : ∃ x ∈ m.settings.list.partitions, firstWord x = .ok part.device)
    (hschema : m'.schema = m.schema ++ [part])
    (hlist : m'.settings.list.partitions =
      m.settings.list.partitions.filter fun x => !contains x part.device) : Apart m' := by
  refine ⟨?_, h.nodup_append hlisted hschema⟩
  intro p hp x hx
  rw [hlist, List.mem_filter] at hx
  rw [hschema, List.mem_append, List.mem_singleton] at hp
  rcases hp with hp | rfl
  · exact h.notListed p hp x hx.1
  · intro hword
    rw [contains_firstWord hword] at hx
    exact absurd hx.2 (by simp)

theorem Apart.idle (h : Apart m) (hidle : Idle m m') : Apart m' := by
  refine ⟨?_, ?_⟩
  · rw [hidle.schema, hidle.partitions]
    exact h.notListed
  · rw [hidle.schema]
    exact h.distinct

end Apart

/-- A partition that is taken is one of the list. -/
theorem SwapReplies.Takes.listed {replies : SwapReplies} {list : PartitionSettings} {device : Str}
    (h : replies.Takes list device) : ∃ x ∈ list.partitions, firstWord x = .ok device := by
  obtain ⟨n, -, hanswer, hnone, hfile, -⟩ := h
  obtain ⟨x, hx, hword⟩ := mem_of_menuAnswer hanswer
  rcases List.mem_append.mp hx with hheader | hx
  · rcases firstWord_header hheader with hno | hno
    · exact absurd (Except.ok.inj (hword.symm.trans hno)) hnone
    · exact absurd (Except.ok.inj (hword.symm.trans hno)) hfile
  · exact ⟨x, hx, hword⟩

theorem AdditionalReplies.Takes.listed {replies : AdditionalReplies} {settings : MountSettings}
    {device mount : Str} (h : replies.Takes settings device mount) :
    ∃ x ∈ settings.list.partitions, firstWord x = .ok device := by
  obtain ⟨⟨n, -, hanswer⟩, hdone, -⟩ := h
  obtain ⟨x, hx, hword⟩ := mem_of_menuAnswer hanswer
  rcases List.mem_cons.mp hx with rfl | hx
  · exact absurd (Except.ok.inj (hword.symm.trans firstWord_done)) hdone
  · exact ⟨x, hx, hword⟩

/-! ## One step -/

section Step

variable {S : Sorter Partition} {devices : Devices} {step : MountStep} {s : MountRun}

theorem mountPartitions_step (hphase : step.phase = s.phase) :
    (mountPartitions S devices).step step s = s.after (step.apply S devices s.toMounting) :=
  if_pos hphase

theorem mountPartitions_step_of_ne (hphase : step.phase ≠ s.phase) :
    (mountPartitions S devices).step step s = (.ok (), s) :=
  if_neg hphase

/-- A step that appends nothing keeps the list and the schema apart. -/
theorem Invariant.of_staysIdle {result : Except Fault (Phase × Mounting)} (h : Invariant s)
    (hrunning : s.phase ≠ .finished) (hidle : StaysIdle s.toMounting result) :
    Invariant (s.after result).2 := by
  rcases result with fault | ⟨phase, m'⟩
  · exact ⟨fun hphase => absurd rfl hphase, h.distinct, fun hphase => by cases hphase⟩
  · obtain ⟨hidle, hcount⟩ := hidle phase m' rfl
    have hapart := (h.apart hrunning).idle hidle
    exact ⟨fun _ => hapart, hapart.distinct, hcount⟩

/-- After the last step only the devices matter. -/
theorem Invariant.of_finished {result : Except Fault (Phase × Mounting)} (h : Invariant s)
    (hresult : ∀ phase m', result = .ok (phase, m') →
      phase = .finished ∧ (m'.schema.map Partition.device).Nodup) :
    Invariant (s.after result).2 := by
  rcases result with fault | ⟨phase, m'⟩
  · exact ⟨fun hphase => absurd rfl hphase, h.distinct, fun hphase => by cases hphase⟩
  · obtain ⟨rfl, hdistinct⟩ := hresult phase m' rfl
    exact ⟨fun hphase => absurd rfl hphase, hdistinct, fun hphase => by cases hphase⟩

/-- **A step that takes what it uses off the list** keeps the invariant. -/
theorem Invariant.next (h : Invariant s) (htakes : TakesOffList step s) :
    Invariant ((mountPartitions S devices).step step s).2 := by
  by_cases hphase : step.phase = s.phase
  swap
  · rw [mountPartitions_step_of_ne hphase]
    exact h
  have hrunning : s.phase ≠ .finished := by
    rw [← hphase]
    cases step <;> simp [MountStep.phase]
  have hapart := h.apart hrunning
  rw [mountPartitions_step hphase]
  cases step with
  -- A step that takes a root would leave it on the list, so this one takes none.
  | root replies => exact h.of_staysIdle hrunning (rootStep_idle (htakes hphase.symm))
  | swap replies =>
    rcases swapStep_takes_or_idle replies s.toMounting with
      ⟨device, hswap, hstep⟩ | ⟨-, hidle⟩
    · have hschema : (swapMounted replies device s.toMounting).schema =
          s.schema ++ [swapEntry replies device] := rfl
      have happended := hapart.append hswap.listed hschema rfl
      rw [MountStep.apply, hstep]
      exact ⟨fun _ => happended, happended.distinct, loopPhase_eq_additional⟩
    · exact h.of_staysIdle hrunning hidle
  | additional replies =>
    rcases additionalStep_takes_or_idle devices replies s.toMounting with
      ⟨device, mount, fs, hadditional, hstep⟩ | ⟨-, hidle⟩
    · have hlist : (additionalMounted devices replies device mount fs s.toMounting).settings.list =
          { s.settings.list with partition := device }.removePartition := by
        rw [additionalMounted_list, htakes hphase.symm device mount hadditional]
        rfl
      have happended := hapart.append hadditional.listed additionalMounted_schema
        (congrArg PartitionSettings.partitions hlist)
      rw [MountStep.apply, hstep]
      exact ⟨fun _ => happended, happended.distinct, loopPhase_eq_additional⟩
    · exact h.of_staysIdle hrunning hidle
  | esp replies =>
    apply h.of_finished
    intro phase m' hstep
    rcases espStep_takes_or_idle replies s.toMounting with
      ⟨device, mount, m'', hesp, hstep', hschema, -⟩ | ⟨-, hidle⟩
    · obtain ⟨rfl, rfl⟩ := Prod.mk.inj (Except.ok.inj (hstep.symm.trans hstep'))
      obtain ⟨-, ⟨n, -, hanswer⟩, -⟩ := hesp
      exact ⟨rfl, hapart.nodup_append (mem_of_menuAnswer hanswer) hschema⟩
    · obtain ⟨m₁, -, hrest⟩ := bind_eq_ok.mp hstep
      obtain ⟨hschema, -⟩ := hidle _ _ hstep
      rw [hschema]
      exact ⟨(Prod.mk.inj (Except.ok.inj hrest)).1.symm, h.distinct⟩

/-- An entry is offered whose line stays on the list, as long as there is a next menu. -/
theorem not_fresh_of_listed {phase : Phase} {m m' : Mounting} {part : Partition}
    (hschema : m'.schema = m.schema ++ [part]) (hphase : phase = .swap ∨ phase = .additional)
    (hlisted : ∃ x ∈ m'.settings.list.partitions, firstWord x = .ok part.device) :
    ¬ Fresh (s.after (.ok (phase, m'))).2 := by
  intro hfresh
  obtain ⟨x, hx, hword⟩ := hlisted
  have hpart : part ∈ m'.schema := by
    rw [hschema]
    exact List.mem_append_right _ (List.mem_singleton_self _)
  refine hfresh.notOffered part hpart x ?_ hword
  rcases hphase with rfl | rfl
  · exact hx
  · exact hx

/-- **After a step that does not, what it took is offered again.** -/
theorem takesOffList_of_fresh (h : Invariant s)
    (hfresh : Fresh ((mountPartitions S devices).step step s).2) : TakesOffList step s := by
  cases step with
  | swap replies => trivial
  | esp replies => trivial
  | root replies =>
    intro hphase device htakes
    have hturn : (MountStep.root replies).phase = s.phase := hphase.symm
    obtain ⟨selection, rfl, hstep⟩ := @rootStep_of_takes S devices _ _ _ htakes
    rw [mountPartitions_step hturn, MountStep.apply, hstep] at hfresh
    obtain ⟨-, -, ⟨n, -, hanswer⟩, -⟩ := htakes
    refine not_fresh_of_listed rootMounted_schema (.inl rfl) ?_ hfresh
    rw [rootPartition]
    simpa [rootMounted] using mem_of_menuAnswer hanswer
  | additional replies =>
    intro hphase device mount htakes
    have hturn : (MountStep.additional replies).phase = s.phase := hphase.symm
    obtain ⟨fs, hstep⟩ := @additionalStep_of_takes devices _ _ _ _ htakes
    rw [mountPartitions_step hturn, MountStep.apply, hstep] at hfresh
    by_contra hmounted
    have hlist : (additionalMounted devices replies device mount fs s.toMounting).settings.list =
        { s.settings.list with partition := device } := by
      rw [additionalMounted_list, confirmMount, if_pos (by simpa using hmounted)]
    have hloop : loopPhase (additionalMounted devices replies device mount fs s.toMounting) =
        .additional := by
      rw [loopPhase, hlist, if_pos (h.counted hphase)]
    refine not_fresh_of_listed additionalMounted_schema (.inr hloop) ?_ hfresh
    rw [hlist]
    exact htakes.listed

end Step

/-- **In every run no partition of the schema is offered again**, iff no step takes a partition as
root, and `mount` lists every additional partition that is taken. -/
theorem mountPartitions_fresh_iff (S : Sorter Partition) (devices : Devices)
    (settings : MountSettings) (steps : List MountStep) :
    (mountPartitions S devices).Throughout Fresh steps (.start settings) ↔
      (mountPartitions S devices).Along TakesOffList steps (.start settings) := by
  have hstart : Invariant (.start settings) := by
    refine ⟨fun _ => ⟨?_, List.nodup_nil⟩, List.nodup_nil, fun hphase => by cases hphase⟩
    intro part hpart
    exact absurd hpart List.not_mem_nil
  refine Machine.Throughout.iff_along (I := Invariant) ?_ ?_ ?_ (Machine.along_true steps _) hstart
  · intro s h
    exact h.fresh
  · intro step s h _ htakes
    exact h.next htakes
  · intro step s h _ hfresh
    exact takesOffList_of_fresh h hfresh

/-- The root is offered as swap, and taken. -/
theorem mountPartitions_root_as_swap :
    ((mountPartitions .stable plainDevices).run
        [.root (.keep 0 ⟨true, true, []⟩), .swap (.keep 2)] (.start twoPartitions)).schema.map
          (fun part => (part.device, part.mountpoint)) =
        [(lit "/dev/sda1", lit "/"), (lit "/dev/sda1", [])] ∧
      ¬ ∀ S devices settings steps, (mountPartitions S devices).Throughout Fresh steps
        (.start settings) := by
  have hschema : ((mountPartitions .stable plainDevices).run
      [.root (.keep 0 ⟨true, true, []⟩), .swap (.keep 2)] (.start twoPartitions)).schema.map
        (fun part => (part.device, part.mountpoint)) =
      [(lit "/dev/sda1", lit "/"), (lit "/dev/sda1", [])] := by
    decide +kernel
  refine ⟨hschema, fun h => ?_⟩
  obtain ⟨-, -, hfresh⟩ := h .stable plainDevices twoPartitions
    [.root (.keep 0 ⟨true, true, []⟩), .swap (.keep 2)]
  have hdistinct := hfresh.distinct
  have hdevices : _ = [lit "/dev/sda1", lit "/dev/sda1"] := congrArg (List.map Prod.fst) hschema
  rw [List.map_map] at hdevices
  rw [show Partition.device = Prod.fst ∘ fun part : Partition => (part.device, part.mountpoint)
    from rfl] at hdistinct
  exact absurd (hdevices ▸ hdistinct) (by decide +kernel)

end CliInstaller
