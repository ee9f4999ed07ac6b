import KernelcModerne.Boot.Bootloader

open Throwing

namespace Kernel.Bootloader

/-- From every state the run ends with `result` and calls `handleBootError` with
`messages`. -/
abbrev Reports {α : Type} (m : BootM α) (result : Except Boot.Stop α) (messages : List String) : Prop :=
  Emits bootErrors m result messages

/-- The run answers `good`, and has reported an error exactly when it is false. -/
def Answers (m : BootM Bool) (good : Bool) : Prop :=
  ∃ messages, Reports m (.ok good) messages ∧ (messages = [] ↔ good = true)

/-- The run ends with an exception. -/
def Fails (m : BootM Bool) : Prop :=
  ∃ e messages, Reports m (.error (.exception e)) messages

theorem logBootStage_reports (message : String) : Reports (logBootStage message) (.ok ()) [] :=
  .modify_silent fun _ => rfl

theorem enter_reports (stage : BootStage) : Reports (enter stage) (.ok ()) [] :=
  .modify_silent fun _ => rfl

theorem handleBootError_reports (message : String) : Reports (handleBootError message) (.ok ()) [message] :=
  .modify fun _ => rfl

/-- Reporting an error and answering false. -/
theorem answers_false (message : String) :
    Answers (do handleBootError message; return false) false :=
  ⟨_, (handleBootError_reports message).bind (.pure false), by simp⟩

theorem Answers.bind_silent {α : Type} {before : BootM α} {a : α} {f : α → BootM Bool} {good : Bool}
    (hbefore : Reports before (.ok a) []) (h : Answers (f a) good) : Answers (before >>= f) good := by
  obtain ⟨messages, hreports, hiff⟩ := h
  exact ⟨messages, hbefore.bind_silent hreports, hiff⟩

theorem Fails.bind_silent {α : Type} {before : BootM α} {a : α} {f : α → BootM Bool}
    (hbefore : Reports before (.ok a) []) (h : Fails (f a)) : Fails (before >>= f) := by
  obtain ⟨e, messages, hreports⟩ := h
  exact ⟨e, messages, hbefore.bind_silent hreports⟩

section CatchAll

variable {m : BootM Bool} {messages : List String} (report : String)

theorem catchAll_ok {good : Bool} (h : Reports m (.ok good) messages) :
    Reports (catchAll report m) (.ok good) messages :=
  h.tryCatch_ok _

/-- A handler for all exceptions reports one and answers false. -/
theorem catchAll_exception {e : Boot.BootException} (h : Reports m (.error (.exception e)) messages) :
    Reports (catchAll report m) (.ok false) (messages ++ [report ++ e.what]) := by
  have hhandler : Reports (do handleBootError (report ++ e.what); return false) (.ok false)
      ([report ++ e.what] ++ []) :=
    (handleBootError_reports _).bind (.pure false)
  exact h.tryCatch_error hhandler

/-- No handler ends a loop without end. -/
theorem catchAll_forever (h : Reports m (.error .forever) messages) :
    Reports (catchAll report m) (.error .forever) messages := by
  have hhandler : Reports (throw .forever : BootM Bool) (.error .forever) [] := .throw _
  rw [← List.append_nil messages]
  exact h.tryCatch_error hhandler

theorem Answers.catchAll {good : Bool} (h : Answers m good) : Answers (catchAll report m) good := by
  obtain ⟨messages, hreports, hiff⟩ := h
  exact ⟨messages, catchAll_ok report hreports, hiff⟩

theorem Fails.catchAll (h : Fails m) : Answers (catchAll report m) false := by
  obtain ⟨e, messages, hreports⟩ := h
  exact ⟨_, catchAll_exception report hreports, by simp⟩

end CatchAll

section Stages

variable (env : Boot.Environment)

/-- Both directories can be made. -/
def mounts : Bool :=
  (env.createDirectories "/mnt/root").isOk && (env.createDirectories "/mnt/home").isOk

theorem ask_reports {α : Type} {answer : Except Boot.BootException α} {a : α} (h : answer = .ok a) :
    Reports (ask answer) (.ok a) [] := by
  rw [h]
  exact .call _

theorem ask_throws {α : Type} (e : Boot.BootException) (f : α → BootM Bool) :
    Reports (ask (.error e) >>= f) (.error (.exception e)) [] :=
  (Emits.call _).bind_error f

theorem ask_fails {α : Type} (e : Boot.BootException) (f : α → BootM Bool) :
    Fails (ask (.error e) >>= f) :=
  ⟨e, [], ask_throws e f⟩

theorem mountFilesystems_answers : Answers (mountFilesystems env) (mounts env) := by
  unfold mountFilesystems mounts
  refine .bind_silent (logBootStage_reports _) ?_
  cases hroot : env.createDirectories "/mnt/root" with
  | error e => exact (ask_fails e _).catchAll _
  | ok made =>
    cases hhome : env.createDirectories "/mnt/home" with
    | error e => exact (Fails.bind_silent (ask_reports rfl) (ask_fails e _)).catchAll _
    | ok made' =>
      refine Answers.catchAll _ ⟨[], ?_, by simp [Except.isOk, Except.toBool]⟩
      refine (ask_reports rfl).bind_silent ((ask_reports rfl).bind_silent ?_)
      refine (enter_reports _).bind_silent ((logBootStage_reports _).bind_silent ?_)
      exact (enter_reports _).bind_silent (.pure true)

/-- The kernel file can be opened and its header and checksum are right. -/
def validImage : Bool :=
  match env.image with
  | none => false
  | some image =>
    let header := KernelImage.header image env.uninitialised
    KernelImage.hasMagic header && KernelImage.e_machine header = KernelImage.EM_X86_64 &&
      KernelImage.checksum env.layout image = KernelImage.e_checksum env.layout header

theorem validateKernelImage_answers : Answers (validateKernelImage env) (validImage env) := by
  unfold validateKernelImage validImage
  cases env.image with
  | none => exact answers_false _
  | some image =>
    dsimp only
    split
    · rename_i hmagic
      rw [Bool.not_eq_true'] at hmagic
      rw [hmagic]
      exact answers_false _
    · split
      · rename_i hmachine
        rw [decide_eq_false hmachine, Bool.and_false, Bool.false_and]
        exact answers_false _
      · split
        · rename_i hsum
          rw [decide_eq_false hsum, Bool.and_false]
          exact answers_false _
        · rename_i hmagic hmachine hsum
          simp only [Bool.not_eq_true', Bool.not_eq_false] at hmagic
          rw [hmagic, decide_eq_true (not_not.mp hmachine), decide_eq_true (not_not.mp hsum)]
          exact ⟨[], .pure true, by simp⟩

/-- The kernel is there and valid and the file systems can be mounted. -/
def loads : Bool :=
  env.fileExists kernelPath_ matches .ok true && validImage env && mounts env

/-- After the first part of a run has reported an error and answered false. -/
theorem Answers.bind_false {m : BootM Bool} {f : Bool → BootM Bool} (hm : Answers m false)
    (hf : Answers (f false) false) : Answers (m >>= f) false := by
  obtain ⟨first, hfirst, hiff⟩ := hm
  obtain ⟨more, hmore, _⟩ := hf
  refine ⟨_, hfirst.bind hmore, ?_⟩
  simp [hiff]

theorem Answers.bind_true {m : BootM Bool} {f : Bool → BootM Bool} {good : Bool} (hm : Answers m true)
    (hf : Answers (f true) good) : Answers (m >>= f) good := by
  obtain ⟨first, hfirst, hiff⟩ := hm
  obtain rfl := hiff.mpr rfl
  exact hf.bind_silent hfirst

theorem Answers.catchFilesystem {m : BootM Bool} {good : Bool} (h : Answers m good) (report : String) :
    Answers (catchFilesystem report m) good := by
  obtain ⟨messages, hreports, hiff⟩ := h
  exact ⟨messages, hreports.tryCatch_ok _, hiff⟩

/-- Only an exception that is no `filesystem_error` leaves `loadKernel`. -/
theorem loadKernel_ends : Answers (loadKernel env) (loads env) ∨
    loads env = false ∧ Fails (loadKernel env) := by
  unfold loadKernel loads
  cases hfound : env.fileExists kernelPath_ with
  | error e =>
    cases e with
    | filesystem_error what =>
      refine .inl (.bind_silent (logBootStage_reports _) ?_)
      exact ⟨_, (ask_throws _ _).tryCatch_error ((handleBootError_reports _).bind (.pure false)), by simp⟩
    | other what =>
      refine .inr ⟨rfl, .bind_silent (logBootStage_reports _) ?_⟩
      exact ⟨_, _, (ask_throws _ _).tryCatch_error (.throw _)⟩
  | ok found =>
    refine .inl (.bind_silent (logBootStage_reports _) (Answers.catchFilesystem ?_ _))
    refine .bind_silent (ask_reports rfl) ?_
    cases found with
    | false => exact answers_false _
    | true =>
      have hvalid := validateKernelImage_answers env
      cases hgood : validImage env with
      | false =>
        rw [hgood] at hvalid
        exact hvalid.bind_false (answers_false _)
      | true =>
        rw [hgood] at hvalid
        refine hvalid.bind_true (.bind_silent (enter_reports _) ?_)
        exact mountFilesystems_answers env

/-- What the two detectors report. -/
def detectorReports : List String :=
  (if hasLongMode env then [] else ["CPU does not support 64-bit long mode"]) ++
    if hasFlag env Multiboot.MULTIBOOT_INFO_MEMORY then [] else ["No memory information from bootloader"]

theorem detectCPU_reports : Reports (detectCPU env) (.ok ())
    (if hasLongMode env then [] else ["CPU does not support 64-bit long mode"]) := by
  unfold detectCPU
  refine .bind_silent (.modify_silent fun _ => rfl) ?_
  cases hasLongMode env with
  | false => exact handleBootError_reports _
  | true => exact .modify_silent fun _ => rfl

/-- The memory map is walked to its end, where it is walked at all. -/
def mapWalked : Bool :=
  !hasFlag env Multiboot.MULTIBOOT_INFO_MEMORY || !hasFlag env Multiboot.MULTIBOOT_INFO_MEM_MAP ||
    (env.mbi.walk env.memory).isSome

theorem detectMemoryCapacity_reports : Reports (detectMemoryCapacity env)
    (if mapWalked env then .ok () else .error .forever)
    (if hasFlag env Multiboot.MULTIBOOT_INFO_MEMORY then []
      else ["No memory information from bootloader"]) := by
  unfold detectMemoryCapacity mapWalked
  cases hasFlag env Multiboot.MULTIBOOT_INFO_MEMORY with
  | false => exact handleBootError_reports _
  | true =>
    refine .bind_silent (.modify_silent fun _ => rfl) ?_
    cases hasFlag env Multiboot.MULTIBOOT_INFO_MEM_MAP with
    | false => exact .modify_silent fun _ => rfl
    | true =>
      cases env.mbi.walk env.memory with
      | none => exact (Emits.throw _).bind_error _
      | some walk =>
        refine .bind_silent (.modify_silent fun _ => rfl) (.bind_silent (logBootStage_reports _) ?_)
        exact .modify_silent fun _ => rfl

/-- What follows the detectors, where they end. -/
theorem detectors_bind {m : BootM Bool} {result : Except Boot.Stop Bool} {more : List String}
    (hwalk : mapWalked env = true) (hm : Reports m result more) :
    Reports (do detectCPU env; detectMemoryCapacity env; m) result (detectorReports env ++ more) := by
  have hmemory := detectMemoryCapacity_reports env
  rw [hwalk, if_pos rfl] at hmemory
  rw [detectorReports, List.append_assoc]
  exact (detectCPU_reports env).bind (hmemory.bind hm)

/-- `detectHardware` from the probe on, without its handler. -/
def probeAndLoad : BootM Bool := do
  probeHardwareInterfaces env
  initializeInterruptControllers env
  modify fun self => { self with detectedDevices_ := deviceLines self.hardwareState }
  enter .KERNEL_LOAD
  loadKernel env

theorem detectHardware_eq : detectHardware env = (do
    logBootStage "Performing comprehensive hardware detection"
    catchAll "Hardware detection failed: " do
      detectCPU env
      detectMemoryCapacity env
      probeAndLoad env) := rfl

/-- A loop without end shows what the detectors reported before it. -/
theorem detectHardware_forever (h : mapWalked env = false ∨
    mapWalked env = true ∧ env.probe = .error .forever) :
    Reports (detectHardware env) (.error .forever) (detectorReports env) := by
  rw [detectHardware_eq]
  refine (logBootStage_reports _).bind_silent (catchAll_forever _ ?_)
  cases h with
  | inl hwalk =>
    have hmemory := detectMemoryCapacity_reports env
    rw [hwalk] at hmemory
    exact (detectCPU_reports env).bind (hmemory.bind_error _)
  | inr hprobe =>
    have hforever : Reports (probeAndLoad env) (.error .forever) [] := by
      refine Emits.bind_error _ ?_
      rw [probeHardwareInterfaces, hprobe.2]
      exact .call _
    have hdetect := detectors_bind env hprobe.1 hforever
    rwa [List.append_nil] at hdetect

theorem detectHardware_probe_throws {e : Boot.BootException} (hwalk : mapWalked env = true)
    (hprobe : env.probe = .error (.exception e)) :
    ∃ messages, Reports (detectHardware env) (.ok false) messages := by
  have hthrows : Reports (probeAndLoad env) (.error (.exception e)) [] := by
    refine Emits.bind_error _ ?_
    rw [probeHardwareInterfaces, hprobe]
    exact .call _
  have hdetect := detectors_bind env hwalk hthrows
  rw [detectHardware_eq]
  exact ⟨_, (logBootStage_reports _).bind_silent (catchAll_exception _ hdetect)⟩

/-- Otherwise it ends as the loading of the kernel does. -/
theorem detectHardware_loads (hwalk : mapWalked env = true) (hprobe : env.probe = .ok ()) :
    ∃ more, Reports (detectHardware env) (.ok (loads env)) (detectorReports env ++ more) ∧
      (more = [] ↔ loads env = true) := by
  have hprobes {result : Except Boot.Stop Bool} {messages : List String}
      (hload : Reports (loadKernel env) result messages) : Reports (probeAndLoad env) result messages := by
    have hsilent : Reports (probeHardwareInterfaces env) (.ok ()) [] := by
      rw [probeHardwareInterfaces, hprobe]
      exact .call _
    refine hsilent.bind_silent (.bind_silent (.modify_silent fun _ => rfl) ?_)
    exact .bind_silent (.modify_silent fun _ => rfl) ((enter_reports _).bind_silent hload)
  rw [detectHardware_eq]
  cases loadKernel_ends env with
  | inl hanswers =>
    obtain ⟨more, hload, hiff⟩ := hanswers
    refine ⟨more, (logBootStage_reports _).bind_silent ?_, hiff⟩
    exact catchAll_ok _ (detectors_bind env hwalk (hprobes hload))
  | inr hfails =>
    obtain ⟨hfalse, e, messages, hload⟩ := hfails
    have hcaught := catchAll_exception "Hardware detection failed: "
      (detectors_bind env hwalk (hprobes hload))
    rw [List.append_assoc] at hcaught
    refine ⟨messages ++ ["Hardware detection failed: " ++ e.what], ?_, by simp [hfalse]⟩
    rw [hfalse]
    exact (logBootStage_reports _).bind_silent hcaught

/-- Where `/boot` is not found the boot ends at once. -/
theorem initializeBootloader_stops (h : env.fileExists "/boot" ≠ .ok true) :
    ∃ messages, Reports (initializeBootloader env) (.ok false) messages := by
  unfold initializeBootloader
  cases hfound : env.fileExists "/boot" with
  | error e =>
    refine ⟨[] ++ ["Initialization failed: " ++ e.what], catchAll_exception _ ?_⟩
    exact (enter_reports _).bind_silent ((logBootStage_reports _).bind_silent (ask_throws e _))
  | ok found =>
    cases found with
    | true => exact absurd hfound h
    | false =>
      refine ⟨["Boot directory not found"] ++ [], catchAll_ok _ ?_⟩
      refine (enter_reports _).bind_silent ((logBootStage_reports _).bind_silent ?_)
      exact (ask_reports rfl).bind_silent ((handleBootError_reports _).bind (.pure false))

/-- Otherwise it ends as the detection of the hardware does. -/
theorem initializeBootloader_detects (h : env.fileExists "/boot" = .ok true)
    {result : Except Boot.Stop Bool} {messages : List String}
    (hdetect : Reports (detectHardware env) result messages)
    (hcaught : ∀ e, result ≠ .error (.exception e)) :
    Reports (initializeBootloader env) result messages := by
  have hbody : Reports (do
      enter .PRE_INIT
      logBootStage "Pre-initialization starting"
      let found ← ask (env.fileExists "/boot")
      if !found then
        handleBootError "Boot directory not found"
        return false
      else
        enter .HARDWARE_DETECTION
        detectHardware env) result messages := by
    rw [h]
    refine (enter_reports _).bind_silent ((logBootStage_reports _).bind_silent ?_)
    exact (ask_reports rfl).bind_silent ((enter_reports _).bind_silent hdetect)
  cases result with
  | ok good => exact catchAll_ok _ hbody
  | error stop =>
    cases stop with
    | exception e => exact absurd rfl (hcaught e)
    | forever => exact catchAll_forever _ hbody

/-- When the boot passes the detectors, it ends without success. -/
def StopsLater : Prop :=
  mapWalked env = true ∧
    ((∃ e, env.probe = .error (.exception e)) ∨ env.probe = .ok () ∧ loads env = false)

/-- The detectors are not reached or find what they look for, or the boot stops
after them. -/
def ErrorsStopBoot : Prop :=
  env.fileExists "/boot" ≠ .ok true ∨
    hasLongMode env = true ∧ hasFlag env Multiboot.MULTIBOOT_INFO_MEMORY = true ∨ StopsLater env

theorem detectorReports_eq_nil_iff : detectorReports env = [] ↔
    hasLongMode env = true ∧ hasFlag env Multiboot.MULTIBOOT_INFO_MEMORY = true := by
  unfold detectorReports
  cases hasLongMode env <;> cases hasFlag env Multiboot.MULTIBOOT_INFO_MEMORY <;> simp

/-- If `handleBootError` is called during `initialize`, it answers false. -/
def Propagates : Prop :=
  ∀ before : Bootloader, ((initializeBootloader env).runAt before).2.bootErrors ≠ before.bootErrors →
    ((initializeBootloader env).runAt before).1 = .ok false

variable {env}

theorem propagates_iff_of_reports {result : Except Boot.Stop Bool} {messages : List String}
    (h : Reports (initializeBootloader env) result messages) :
    Propagates env ↔ (messages ≠ [] → result = .ok false) := by
  constructor
  · intro hall hmessages
    have hone := hall {}
    rw [(h {}).1, (h {}).2] at hone
    exact hone (by simpa using hmessages)
  · intro hone before hgrown
    rw [(h before).2] at hgrown
    rw [(h before).1]
    apply hone
    rintro rfl
    exact hgrown (List.append_nil _)

/-- An error stops the boot exactly when the detectors have none to report or the
boot stops anyway. -/
theorem propagates_iff (env : Boot.Environment) : Propagates env ↔ ErrorsStopBoot env := by
  by_cases hboot : env.fileExists "/boot" = .ok true
  · by_cases hwalk : mapWalked env = true
    · cases hprobe : env.probe with
      | ok probed =>
        obtain ⟨more, hdetect, hiff⟩ := detectHardware_loads env hwalk hprobe
        rw [propagates_iff_of_reports (initializeBootloader_detects env hboot hdetect (by simp))]
        simp only [ErrorsStopBoot, StopsLater, hboot, hwalk, hprobe, ← detectorReports_eq_nil_iff]
        by_cases hnone : detectorReports env = []
        · simp [hnone, hiff]
        · simp [hnone]
      | error stop =>
        cases stop with
        | exception e =>
          obtain ⟨messages, hdetect⟩ := detectHardware_probe_throws env hwalk hprobe
          rw [propagates_iff_of_reports (initializeBootloader_detects env hboot hdetect (by simp))]
          exact iff_of_true (fun _ => rfl) (.inr (.inr ⟨hwalk, .inl ⟨e, hprobe⟩⟩))
        | forever =>
          have hdetect := detectHardware_forever env (.inr ⟨hwalk, hprobe⟩)
          rw [propagates_iff_of_reports (initializeBootloader_detects env hboot hdetect (by simp))]
          simp [ErrorsStopBoot, StopsLater, hboot, hprobe, ← detectorReports_eq_nil_iff]
    · have hdetect := detectHardware_forever env (.inl (eq_false_of_ne_true hwalk))
      rw [propagates_iff_of_reports (initializeBootloader_detects env hboot hdetect (by simp))]
      simp [ErrorsStopBoot, StopsLater, hboot, hwalk, ← detectorReports_eq_nil_iff]
  · obtain ⟨messages, hreports⟩ := initializeBootloader_stops env hboot
    exact iff_of_true ((propagates_iff_of_reports hreports).mpr fun _ => rfl) (.inl hboot)

end Stages

/-- A machine on which the boot succeeds, with the feature bits `edx`. -/
def machine (edx : UInt32) (probe : Except Boot.Stop Unit) : Boot.Environment where
  cpuid _ := ⟨0, 0, 0, edx⟩
  mbi := ⟨Multiboot.MULTIBOOT_INFO_MEMORY, 0x20000, 0, 0⟩
  memory _ := 0
  probe := probe
  apicBase := none
  fileExists _ := .ok true
  createDirectories _ := .ok ()
  image := some (KernelImage.ELFMAG ++ List.replicate 14 0 ++ [62] ++ List.replicate 49 0)
  uninitialised _ := 0
  layout := ⟨68, 64⟩

theorem machine_loads (edx : UInt32) (probe : Except Boot.Stop Unit) : loads (machine edx probe) = true := by
  have hsum : KernelImage.checksum ⟨68, 64⟩
      (KernelImage.ELFMAG ++ List.replicate 14 0 ++ [62] ++ List.replicate 49 0) = 0 :=
    KernelImage.checksumFrom_of_short 0 (by decide)
  simp only [loads, validImage, machine, hsum]
  rfl

theorem machine_reports (edx : UInt32) : Reports (initializeBootloader (machine edx (.ok ())))
    (.ok true) (detectorReports (machine edx (.ok ()))) := by
  have hwalk : mapWalked (machine edx (.ok ())) = true := by
    have hmap : Multiboot.MULTIBOOT_INFO_MEMORY &&& Multiboot.MULTIBOOT_INFO_MEM_MAP = 0 := by decide
    simp [mapWalked, hasFlag, machine, hmap]
  obtain ⟨more, hdetect, hiff⟩ := detectHardware_loads (machine edx (.ok ())) hwalk rfl
  obtain rfl := hiff.mpr (machine_loads _ _)
  rw [machine_loads, List.append_nil] at hdetect
  exact initializeBootloader_detects _ rfl hdetect (by simp)

/-- Without long mode the error is reported, and `initialize` answers true, or
with a probe without end does not answer. -/
theorem boots_without_long_mode : ¬ Propagates (machine 0 (.ok ())) ∧
    ¬ Propagates (machine 0 (.error .forever)) := by
  constructor
  · rw [propagates_iff_of_reports (machine_reports 0)]
    exact fun h => absurd (h (by decide)) (by simp)
  · have hdetect := detectHardware_forever (machine 0 (.error .forever)) (.inr ⟨rfl, rfl⟩)
    rw [propagates_iff_of_reports (initializeBootloader_detects _ rfl hdetect (by simp))]
    exact fun h => absurd (h (by decide)) (by simp)

end Kernel.Bootloader
