import KernelcModerne.Lib.CountedLoop

open CountedLoop

namespace Kernel.PciProbe

structure PCIDevice where
  bus : BitVec 8
  device : BitVec 8
  function : BitVec 8
  vendorId : BitVec 32
  deviceId : BitVec 32
  classCode : BitVec 8
  subClass : BitVec 8

/-- `pciConfigRead(bus, device, function, offset)`. -/
abbrev ConfigSpace := BitVec 8 → BitVec 8 → BitVec 8 → BitVec 8 → BitVec 32

variable (pciConfigRead : ConfigSpace)

/-- What is stored of a function whose id is not all ones. -/
def detected (bus device function : BitVec 8) : Option PCIDevice :=
  let id := pciConfigRead bus device function 0
  if id ≠ 0xFFFFFFFF then
    let classCode := pciConfigRead bus device function 8
    some
      { bus, device, function
        vendorId := id &&& 0xFFFF
        deviceId := (id >>> 16) &&& 0xFFFF
        classCode := ((classCode >>> 24) &&& 0xFF).setWidth 8
        subClass := ((classCode >>> 16) &&& 0xFF).setWidth 8 }
  else none

/-- The body of the inmost loop. -/
def probeFunction (bus device : BitVec 8) (detectedDevices : List PCIDevice) (function : BitVec 8) :
    List PCIDevice :=
  detectedDevices ++ (detected pciConfigRead bus device function).toList

def probeDevice (fuel : Nat) (bus device : BitVec 8) (detectedDevices : List PCIDevice) :
    Option (List PCIDevice) :=
  run 8 (fun function devices => some (probeFunction pciConfigRead bus device devices function)) fuel
    detectedDevices

def probeBus (fuel : Nat) (bus : BitVec 8) (detectedDevices : List PCIDevice) : Option (List PCIDevice) :=
  run 32 (probeDevice pciConfigRead fuel bus) fuel detectedDevices

/-- The three loops of `probeHardwareInterfaces`, each for at most `fuel` tests
of its condition. -/
def probeHardwareInterfaces (fuel : Nat) (detectedDevices : List PCIDevice) : Option (List PCIDevice) :=
  run 256 (probeBus pciConfigRead fuel) fuel detectedDevices

/-- The probe ends and has recorded each function that answers once. -/
def EnumeratesOnce : Prop :=
  ∃ fuel devices, probeHardwareInterfaces pciConfigRead fuel [] = some devices ∧
    ∀ bus device function : BitVec 8, device.toNat < 32 → function.toNat < 8 →
      pciConfigRead bus device function 0 ≠ 0xFFFFFFFF →
        devices.countP (fun found =>
          decide (found.bus = bus ∧ found.device = device ∧ found.function = function)) = 1

/-- The functions of a bus that are recorded when it is probed. -/
def onBus (bus : BitVec 8) : List PCIDevice :=
  ((List.range 32).map (BitVec.ofNat 8)).flatMap fun device =>
    ((List.range 8).map (BitVec.ofNat 8)).flatMap fun function =>
      (detected pciConfigRead bus device function).toList

variable {fuel : Nat}

theorem probeDevice_eq (hfuel : 8 < fuel) (bus device : BitVec 8) (devices : List PCIDevice) :
    probeDevice pciConfigRead fuel bus device devices =
      some (devices ++ ((List.range 8).map (BitVec.ofNat 8)).flatMap fun function =>
        (detected pciConfigRead bus device function).toList) := by
  rw [probeDevice, run_eq_foldl (by decide) hfuel (fun _ _ => rfl), List.flatMap_def]
  exact congrArg some List.foldl_append_eq_append

/-- The inner loops end, and record each function of a bus once. -/
theorem probeBus_eq (hfuel : 32 < fuel) (bus : BitVec 8) (devices : List PCIDevice) :
    probeBus pciConfigRead fuel bus devices = some (devices ++ onBus pciConfigRead bus) := by
  have hdevice (device : BitVec 8) (devices : List PCIDevice) :=
    probeDevice_eq pciConfigRead (show 8 < fuel by omega) bus device devices
  rw [probeBus, run_eq_foldl (by decide) hfuel hdevice, onBus, List.flatMap_def]
  exact congrArg some List.foldl_append_eq_append

/-- `bus < 256` holds of every 8-bit `bus`. -/
theorem probeHardwareInterfaces_eq_none (fuel : Nat) (devices : List PCIDevice) :
    probeHardwareInterfaces pciConfigRead fuel devices = none :=
  run_eq_none (by decide) fuel devices

theorem not_enumeratesOnce (pciConfigRead : ConfigSpace) : ¬ EnumeratesOnce pciConfigRead := by
  rintro ⟨fuel, devices, hprobe, _⟩
  rw [probeHardwareInterfaces_eq_none] at hprobe
  cases hprobe

/-- A machine without devices. -/
theorem empty_machine_not_enumerated : ¬ EnumeratesOnce fun _ _ _ _ => 0xFFFFFFFF := by
  rintro ⟨fuel, devices, hprobe, _⟩
  rw [probeHardwareInterfaces_eq_none] at hprobe
  cases hprobe

end Kernel.PciProbe
