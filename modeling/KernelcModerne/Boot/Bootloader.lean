import KernelcModerne.Lib.Throwing
import KernelcModerne.Boot.MemoryMap
import KernelcModerne.Boot.KernelImage

open Throwing

namespace Kernel

inductive BootStage where
  | PRE_INIT
  | HARDWARE_DETECTION
  | KERNEL_LOAD
  | FILESYSTEM_MOUNT
  | MEMORY_INIT
  | BOOT_SCREEN
  | KERNEL_STARTUP
  | COMPLETE
  deriving DecidableEq

namespace Boot

/-- An exception derived from `std::exception`, with its `what()`. -/
inductive BootException where
  | filesystem_error (what : String)
  | other (what : String)

def BootException.what : BootException → String
  | .filesystem_error what => what
  | .other what => what

/-- How a boot function may end other than by returning: a loop without end
passes every handler. -/
inductive Stop where
  | exception (e : BootException)
  | forever

/-- The registers after `cpuid`. -/
structure Registers where
  eax : UInt32
  ebx : UInt32
  ecx : UInt32
  edx : UInt32

/-- What the loader finds around it. `probe` is how `probeHardwareInterfaces`
ends: the results hold whatever it comes to. `apicBase` is the APIC's register,
where the processor has an APIC. `image` holds the bytes of the kernel file,
where it can be opened. -/
structure Environment where
  cpuid : UInt32 → Registers
  mbi : Multiboot.Info
  memory : UInt64 → UInt8
  probe : Except Stop Unit
  apicBase : Option UInt64
  fileExists : String → Except BootException Bool
  createDirectories : String → Except BootException Unit
  image : Option (List UInt8)
  uninitialised : Nat → UInt8
  layout : KernelImage.HeaderLayout

structure HardwareState where
  cpuDetected : Bool := false
  memoryDetected : Bool := false
  totalMemory : UInt64 := 0
  cpuCores : UInt32 := 0
  cpuVendor : String := ""
  cpuModel : String := ""

structure CPUFeatures where
  hasSSE : Bool := false
  hasSSE2 : Bool := false
  hasAVX : Bool := false
  hasVMX : Bool := false
  hasSVM : Bool := false
  hasAES : Bool := false
  hasFPU : Bool := false
  hasTSC : Bool := false
  hasMSR : Bool := false
  hasCX8 : Bool := false
  hasCMOV : Bool := false
  hasCLFSH : Bool := false
  hasMMX : Bool := false
  hasFXSR : Bool := false
  hasXSAVE : Bool := false
  hasPCID : Bool := false
  hasOSXSAVE : Bool := false

/-- A write to a device. -/
inductive DeviceWrite where
  | outb (port : UInt16) (value : UInt8)
  | wrmsr (value : UInt64)
  | lapic (index value : UInt32)

end Boot

open Boot

/-- The loader, with what it has written to `std::cout` and `std::cerr`, to
devices and to the physical memory manager. -/
structure Bootloader where
  currentStage_ : BootStage := .PRE_INIT
  hardwareState : HardwareState := {}
  cpuFeatures : CPUFeatures := {}
  detectedDevices_ : List String := []
  bootLog : List String := []
  bootErrors : List String := []
  freeRegions : List (UInt64 × UInt64) := []
  deviceWrites : List DeviceWrite := []

abbrev BootM := Throwing Stop Bootloader

namespace Bootloader

def kernelPath_ : String := "/boot/vmlinuz"

def logBootStage (message : String) : BootM Unit :=
  modify fun self => { self with bootLog := self.bootLog ++ [message] }

def handleBootError (errorMessage : String) : BootM Unit :=
  modify fun self => { self with bootErrors := self.bootErrors ++ [errorMessage] }

def enter (stage : BootStage) : BootM Unit :=
  modify fun self => { self with currentStage_ := stage }

/-- A call of the file system. -/
def ask {α : Type} (answer : Except BootException α) : BootM α := call (answer.mapError .exception)

/-- `catch (const std::exception& e)` around a boot function. -/
def catchAll (report : String) (body : BootM Bool) : BootM Bool :=
  tryCatch body fun
    | .exception e => do
      handleBootError (report ++ e.what)
      return false
    | .forever => throw .forever

/-- `catch (const std::filesystem::filesystem_error& e)`. -/
def catchFilesystem (report : String) (body : BootM Bool) : BootM Bool :=
  tryCatch body fun
    | .exception (.filesystem_error what) => do
      handleBootError (report ++ what)
      return false
    | stop => throw stop

/-- The four bytes of a register, the lowest first. -/
def bytesOf (register : UInt32) : List UInt8 :=
  [register.toUInt8, (register >>> 8).toUInt8, (register >>> 16).toUInt8, (register >>> 24).toUInt8]

/-- `std::string` of a character array that ends in a zero byte. -/
def cString (bytes : List UInt8) : String :=
  String.ofList ((bytes.takeWhile (· ≠ 0)).map fun byte => Char.ofNat byte.toNat)

def vendorString (registers : Registers) : String :=
  cString (bytesOf registers.ebx ++ bytesOf registers.edx ++ bytesOf registers.ecx)

def brandString (cpuid : UInt32 → Registers) : String :=
  cString <| [0x80000002, 0x80000003, 0x80000004].flatMap fun leaf =>
    let registers := cpuid leaf
    bytesOf registers.eax ++ bytesOf registers.ebx ++ bytesOf registers.ecx ++ bytesOf registers.edx

def bit (register : UInt32) (index : UInt32) : Bool := (register >>> index) &&& 1 = 1

/-- The features as `detectCPU` reads them out of the last answer of `cpuid`. -/
def readFeatures (registers : Registers) : CPUFeatures where
  hasSSE := bit registers.edx 25
  hasSSE2 := bit registers.edx 26
  hasAVX := bit registers.ecx 28
  hasVMX := bit registers.ecx 5
  hasSVM := bit registers.ecx 2
  hasAES := bit registers.ecx 25
  hasFPU := bit registers.edx 0
  hasTSC := bit registers.edx 4
  hasMSR := bit registers.edx 5
  hasCX8 := bit registers.edx 8
  hasCMOV := bit registers.edx 15
  hasCLFSH := bit registers.edx 19
  hasMMX := bit registers.edx 23
  hasFXSR := bit registers.edx 24
  hasXSAVE := bit registers.ecx 26
  hasPCID := bit registers.ecx 17
  hasOSXSAVE := bit registers.ecx 27

def yesNo (flag : Bool) : String := if flag then "Yes" else "No"

/-- What `detectCPU` logs at its end. -/
def featureLines (features : CPUFeatures) : List String :=
  ["CPU Features:",
    " - SSE: " ++ yesNo features.hasSSE,
    " - SSE2: " ++ yesNo features.hasSSE2,
    " - AVX: " ++ yesNo features.hasAVX,
    "Additional CPU Features:",
    " - VMX/SVM: " ++ yesNo (features.hasVMX || features.hasSVM),
    " - AES: " ++ yesNo features.hasAES,
    " - TSC: " ++ yesNo features.hasTSC,
    " - MSR: " ++ yesNo features.hasMSR,
    " - XSAVE: " ++ yesNo features.hasXSAVE,
    " - PCID: " ++ yesNo features.hasPCID]

def hasLongMode (env : Environment) : Bool := bit (env.cpuid 0x80000001).edx 29

def detectCPU (env : Environment) : BootM Unit := do
  modify fun self => { self with hardwareState := { self.hardwareState with
    cpuVendor := vendorString (env.cpuid 0)
    cpuModel := brandString env.cpuid
    cpuCores := ((env.cpuid 1).ebx >>> 16) &&& 0xFF } }
  if !hasLongMode env then handleBootError "CPU does not support 64-bit long mode"
  else
    let features := readFeatures (env.cpuid 0x80000001)
    modify fun self => { self with
      cpuFeatures := features
      bootLog := self.bootLog ++ featureLines features
      hardwareState := { self.hardwareState with cpuDetected := true } }

def hasFlag (env : Environment) (flag : UInt32) : Bool := env.mbi.flags &&& flag ≠ 0

def mebibytes (bytes : UInt64) : String := toString (bytes / 1024 / 1024).toNat

def detectMemoryCapacity (env : Environment) : BootM Unit := do
  if !hasFlag env Multiboot.MULTIBOOT_INFO_MEMORY then
    handleBootError "No memory information from bootloader"
  else
    modify fun self => { self with hardwareState := { self.hardwareState with
      totalMemory := (env.mbi.mem_upper * 1024).toUInt64 } }
    if hasFlag env Multiboot.MULTIBOOT_INFO_MEM_MAP then
      match env.mbi.walk env.memory with
      | none => throw .forever
      | some walk =>
        modify fun self => { self with freeRegions := self.freeRegions ++ walk.freeRegions }
        logBootStage ("Memory detected: " ++ mebibytes walk.usableMemory ++ "MB usable, " ++
          mebibytes walk.reservedMemory ++ "MB reserved, " ++
          mebibytes walk.acpiMemory ++ "MB ACPI reclaimable")
    modify fun self => { self with hardwareState := { self.hardwareState with memoryDetected := true } }

/-- How the probe ends. What it records in `detectedDevices_` is overwritten by
its caller. -/
def probeHardwareInterfaces (env : Environment) : BootM Unit := call env.probe

def initializeInterruptControllers (env : Environment) : BootM Unit := do
  let pic := [DeviceWrite.outb 0x20 0x11, .outb 0xA0 0x11, .outb 0x21 0x20, .outb 0xA1 0x28,
    .outb 0x21 0x04, .outb 0xA1 0x02, .outb 0x21 0x01, .outb 0xA1 0x01, .outb 0x21 0xFF, .outb 0xA1 0xFF]
  let apic := match env.apicBase with
    | none => []
    | some apicBase =>
      [DeviceWrite.outb 0xA1 0xFF, .outb 0x21 0xFF, .wrmsr (apicBase ||| (1 : UInt64) <<< 11),
        .lapic (0xF0 / 4) 0x1FF]
  modify fun self => { self with deviceWrites := self.deviceWrites ++ pic ++ apic }

def initializeMemory : BootM Bool := do
  logBootStage "Initializing system memory"
  enter .BOOT_SCREEN
  return true

def mountFilesystems (env : Environment) : BootM Bool := do
  logBootStage "Mounting filesystems"
  catchAll "Filesystem mounting failed: " do
    ask (env.createDirectories "/mnt/root")
    ask (env.createDirectories "/mnt/home")
    enter .MEMORY_INIT
    initializeMemory

def validateKernelImage (env : Environment) : BootM Bool :=
  match env.image with
  | none => do
    handleBootError "Failed to open kernel image"
    return false
  | some image => do
    let header := KernelImage.header image env.uninitialised
    if !KernelImage.hasMagic header then
      handleBootError "Invalid kernel ELF magic number"
      return false
    else if KernelImage.e_machine header ≠ KernelImage.EM_X86_64 then
      handleBootError "Kernel architecture mismatch"
      return false
    else if KernelImage.checksum env.layout image ≠ KernelImage.e_checksum env.layout header then
      handleBootError "Kernel checksum mismatch"
      return false
    else return true

def loadKernel (env : Environment) : BootM Bool := do
  logBootStage "Loading kernel"
  catchFilesystem "Kernel loading error: " do
    let found ← ask (env.fileExists kernelPath_)
    if !found then
      handleBootError ("Kernel not found at " ++ kernelPath_)
      return false
    else
      let valid ← validateKernelImage env
      if !valid then
        handleBootError "Kernel validation failed"
        return false
      else
        enter .FILESYSTEM_MOUNT
        mountFilesystems env

def deviceLines (state : HardwareState) : List String :=
  ["CPU: " ++ state.cpuVendor ++ " " ++ state.cpuModel,
    "Cores: " ++ toString state.cpuCores.toNat,
    "Memory: " ++ toString (state.totalMemory / (1024 * 1024)).toNat ++ " MB"]

def detectHardware (env : Environment) : BootM Bool := do
  logBootStage "Performing comprehensive hardware detection"
  catchAll "Hardware detection failed: " do
    detectCPU env
    detectMemoryCapacity env
    probeHardwareInterfaces env
    initializeInterruptControllers env
    modify fun self => { self with detectedDevices_ := deviceLines self.hardwareState }
    enter .KERNEL_LOAD
    loadKernel env

/-- `initialize`. -/
def initializeBootloader (env : Environment) : BootM Bool :=
  catchAll "Initialization failed: " do
    enter .PRE_INIT
    logBootStage "Pre-initialization starting"
    let found ← ask (env.fileExists "/boot")
    if !found then
      handleBootError "Boot directory not found"
      return false
    else
      enter .HARDWARE_DETECTION
      detectHardware env

def startKernel : BootM Bool := do
  logBootStage "Starting kernel"
  enter .COMPLETE
  return true

def isBootComplete (self : Bootloader) : Bool := self.currentStage_ = .COMPLETE

end Bootloader

end Kernel
