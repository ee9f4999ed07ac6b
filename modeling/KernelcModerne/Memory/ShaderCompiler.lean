import Mathlib.Data.List.AList
import Mathlib.Data.List.Infix
import KernelcModerne.Lib.Memo

open Transition

namespace Kernel.Memory

inductive ShaderType where
  | Vertex
  | Fragment
  | Compute
  | Geometry
  | TessControl
  | TessEvaluation
  deriving DecidableEq

/-- `static_cast<int>(type)`. -/
def ShaderType.toInt : ShaderType → Nat
  | Vertex => 0
  | Fragment => 1
  | Compute => 2
  | Geometry => 3
  | TessControl => 4
  | TessEvaluation => 5

inductive OptimizationLevel where
  | None
  | Basic
  | Medium
  | Maximum

structure ShaderCompileOptions where
  enableDebugInfo : Bool := false
  enableOptimizations : Bool := true
  optimizationLevel : OptimizationLevel := .Medium
  entryPoint : String := "main"
  targetProfile : String := ""

/-- A `VulkanShader`, without its name and its handles. -/
structure Shader where
  shaderType : ShaderType
  binaryData : List UInt8
  valid : Bool
  deriving DecidableEq

namespace ShaderCompiler

inductive EShLanguage where
  | EShLangVertex
  | EShLangFragment
  | EShLangCompute
  | EShLangGeometry
  | EShLangTessControl
  | EShLangTessEvaluation

inductive EShMessages where
  | EShMsgSpvRules
  | EShMsgVulkanRules
  | EShMsgDebugInfo
  deriving DecidableEq

/-- glslang and Vulkan, which are outside: what they answer for a stage, a source
and the messages that are set, and for a binary. -/
structure Backend where
  parse : EShLanguage → String → List EShMessages → Bool
  link : EShLanguage → String → List EShMessages → Bool
  GlslangToSpv : EShLanguage → String → List EShMessages → List UInt32
  vkCreateShaderModule : List UInt8 → Bool

structure CacheEntry where
  shaderBinary : List UInt8
  hash : String
  lastUsed : Int

end ShaderCompiler

open ShaderCompiler

structure ShaderCompiler where
  shaderCache : AList fun _ : String => CacheEntry

namespace ShaderCompiler

def constructed : ShaderCompiler where
  shaderCache := ∅

def calculateHash (binary : List UInt8) : String :=
  let hash : UInt32 := binary.foldl (fun hash byte => (hash ^^^ byte.toUInt32) * 0x01000193) 0x811C9DC5
  toString hash.toNat

/-- `now` is what the clock answers. -/
def cacheShader (self : ShaderCompiler) (shaderKey : String) (binary : List UInt8) (now : Int) :
    ShaderCompiler :=
  let entry : CacheEntry := ⟨binary, calculateHash binary, now⟩
  { shaderCache := self.shaderCache.insert shaderKey entry }

def getCachedShader (self : ShaderCompiler) (shaderKey : String) (now : Int) :
    ShaderCompiler × Option (List UInt8) :=
  match self.shaderCache.lookup shaderKey with
  | some entry =>
    ({ shaderCache := self.shaderCache.insert shaderKey { entry with lastUsed := now } },
      some entry.shaderBinary)
  | none => (self, none)

/-- `++` on a `bool`, as the assignment of the incremented integer. -/
def increment (x : Bool) : Bool := decide ((x.toNat : Int) + 1 ≠ 0)

/-- `--` on a `bool`, as the assignment of the decremented integer. -/
def decrement (x : Bool) : Bool := decide ((x.toNat : Int) - 1 ≠ 0)

/-- The body of the loop over the source: its two tests, one after the other. -/
def countBrace (hasValidBraces : Bool) (c : Char) : Bool :=
  let hasValidBraces := if c = '\x7b' then increment hasValidBraces else hasValidBraces
  if c = '\x7d' then decrement hasValidBraces else hasValidBraces

def checkShaderSyntax (source : String) : Bool :=
  let hasMain := decide ("void main".toList <:+: source.toList)
  let hasValidBraces := source.toList.foldl countBrace false
  hasMain && hasValidBraces == false

def validateSource (source : String) : Bool :=
  if source.isEmpty then false else checkShaderSyntax source

/-- The bytes of a word in memory, the lowest first. -/
def wordBytes (word : UInt32) : List UInt8 :=
  [word.toUInt8, (word >>> 8).toUInt8, (word >>> 16).toUInt8, (word >>> 24).toUInt8]

/-- What is read of `source.c_str()`. -/
def c_str (source : String) : String := String.ofList (source.toList.takeWhile (· ≠ '\x00'))

def stageOf : ShaderType → EShLanguage
  | .Vertex => .EShLangVertex
  | .Fragment => .EShLangFragment
  | .Compute => .EShLangCompute
  | .Geometry => .EShLangGeometry
  | .TessControl => .EShLangTessControl
  | .TessEvaluation => .EShLangTessEvaluation

section Compilation

variable (backend : Backend)

def compileToSpirV (source : String) (type : ShaderType) (options : ShaderCompileOptions) : List UInt8 :=
  let stage := stageOf type
  let messages := [EShMessages.EShMsgSpvRules, .EShMsgVulkanRules] ++
    if options.enableDebugInfo then [.EShMsgDebugInfo] else []
  if !backend.parse stage (c_str source) messages then []
  else if !backend.link stage (c_str source) messages then []
  else (backend.GlslangToSpv stage (c_str source) messages).flatMap wordBytes

def createShaderFromBinary (binary : List UInt8) (type : ShaderType) : Shader where
  shaderType := type
  binaryData := binary
  valid := backend.vkCreateShaderModule binary

/-- The body that the functions for the six types of shader share. -/
def compileShaderOf (type : ShaderType) (source : String) (options : ShaderCompileOptions) : Option Shader :=
  let binary := compileToSpirV backend source type options
  if !binary.isEmpty then some (createShaderFromBinary backend binary type) else none

def compileVertexShader := compileShaderOf backend .Vertex
def compileFragmentShader := compileShaderOf backend .Fragment
def compileComputeShader := compileShaderOf backend .Compute
def compileGeometryShader := compileShaderOf backend .Geometry
def compileTessControlShader := compileShaderOf backend .TessControl
def compileTessEvalShader := compileShaderOf backend .TessEvaluation

/-- The key of `compile`. -/
def cacheKeyOf (source : String) (type : ShaderType) : String := source ++ toString type.toInt

def compile (self : ShaderCompiler) (source : String) (type : ShaderType) (options : ShaderCompileOptions)
    (now : Int) : ShaderCompiler × Option Shader :=
  let cacheKey := cacheKeyOf source type
  match self.getCachedShader cacheKey now with
  | (self, some cachedShader) => (self, some (createShaderFromBinary backend cachedShader type))
  | (self, none) =>
    if !validateSource source then (self, none)
    else
      let shader := match type with
        | .Vertex => compileVertexShader backend source options
        | .Fragment => compileFragmentShader backend source options
        | .Compute => compileComputeShader backend source options
        | .Geometry => compileGeometryShader backend source options
        | .TessControl => compileTessControlShader backend source options
        | .TessEvaluation => compileTessEvalShader backend source options
      match shader with
      | some shader =>
        if shader.valid then (self.cacheShader cacheKey shader.binaryData now, some shader)
        else (self, some shader)
      | none => (self, none)

end Compilation

/-- The binary is copied, and that is all. -/
def applyBasicOptimizations (shader : Shader) : Shader := shader

def applyMediumOptimizations (shader : Shader) : Shader := applyBasicOptimizations shader

def applyMaxOptimizations (shader : Shader) : Shader := applyMediumOptimizations shader

def optimize (shader : Shader) (level : OptimizationLevel) : Shader :=
  if !shader.valid then shader
  else match level with
    | .Maximum => applyMaxOptimizations shader
    | .Medium => applyMediumOptimizations shader
    | .Basic => applyBasicOptimizations shader
    | .None => shader

/-- A call of `compile`, with what the clock answers. -/
structure Call where
  source : String
  type : ShaderType
  options : ShaderCompileOptions
  now : Int

section Transparency

variable (backend : Backend)

/-- What the key of the call stands for. -/
def Call.key (call : Call) : String × ShaderType := (call.source, call.type)

def Call.binary (call : Call) : List UInt8 := compileToSpirV backend call.source call.type call.options

def step (self : ShaderCompiler) (call : Call) : Option ShaderCompiler :=
  some (self.compile backend call.source call.type call.options call.now).1

/-- The call returns what a compiler without a cache returns. -/
def Transparent (self : ShaderCompiler) (call : Call) : Prop :=
  (self.compile backend call.source call.type call.options call.now).2 =
    (constructed.compile backend call.source call.type call.options call.now).2

/-- The debug information, the one option that the compilation reads, makes no
difference to the binary where the first call leaves one in the cache. -/
def Agrees (first second : Call) : Prop :=
  first.source = second.source → first.type = second.type →
    first.options.enableDebugInfo ≠ second.options.enableDebugInfo → validateSource first.source = true →
    first.binary backend ≠ [] → backend.vkCreateShaderModule (first.binary backend) = true →
    second.binary backend = first.binary backend

/-- What `compile` returns for a call that is not in the cache. -/
def compiled (call : Call) : Option Shader :=
  if validateSource call.source then compileShaderOf backend call.type call.source call.options else none

/-- `compile` caches the shader that it returns. -/
def stores (call : Call) : Bool := (compiled backend call).any Shader.valid

/-- The shaders that the cache answers. -/
def table (self : ShaderCompiler) (k : String × ShaderType) : Option (Option Shader) :=
  (self.shaderCache.lookup (cacheKeyOf k.1 k.2)).map fun entry =>
    some (createShaderFromBinary backend entry.shaderBinary k.2)

/-- The last character of a key is the type. -/
theorem toList_cacheKeyOf (source : String) (type : ShaderType) :
    (cacheKeyOf source type).toList = source.toList ++ [Nat.digitChar type.toInt] := by
  rw [cacheKeyOf, String.toList_append]
  cases type <;> rfl

theorem cacheKeyOf_inj {source source' : String} {type type' : ShaderType}
    (h : cacheKeyOf source type = cacheKeyOf source' type') : source = source' ∧ type = type' := by
  have hlist := congrArg String.toList h
  rw [toList_cacheKeyOf, toList_cacheKeyOf] at hlist
  obtain ⟨hsource, hdigit⟩ := List.append_inj' hlist rfl
  refine ⟨String.toList_inj.mp hsource, ?_⟩
  revert hdigit
  cases type <;> cases type' <;> decide

variable {backend} {self : ShaderCompiler} {call : Call}

theorem compile_of_hit {entry : CacheEntry}
    (h : self.shaderCache.lookup (cacheKeyOf call.source call.type) = some entry) :
    self.compile backend call.source call.type call.options call.now =
      ({ shaderCache :=
          self.shaderCache.insert (cacheKeyOf call.source call.type) { entry with lastUsed := call.now } },
        some (createShaderFromBinary backend entry.shaderBinary call.type)) := by
  simp only [compile, getCachedShader, h]

/-- A shader that comes from the compilation has its binary. -/
theorem binaryData_of_compiled {type : ShaderType} {source : String} {options : ShaderCompileOptions}
    {shader : Shader} (h : compileShaderOf backend type source options = some shader) :
    shader = createShaderFromBinary backend (compileToSpirV backend source type options) type ∧
      compileToSpirV backend source type options ≠ [] := by
  simp only [compileShaderOf] at h
  split at h
  · next hbinary =>
    refine ⟨(Option.some.inj h).symm, ?_⟩
    intro hnil
    rw [hnil] at hbinary
    cases hbinary
  · cases h

/-- The switch of `compile`. -/
theorem compileShaderOf_switch (type : ShaderType) (source : String) (options : ShaderCompileOptions) :
    (match type with
      | .Vertex => compileVertexShader backend source options
      | .Fragment => compileFragmentShader backend source options
      | .Compute => compileComputeShader backend source options
      | .Geometry => compileGeometryShader backend source options
      | .TessControl => compileTessControlShader backend source options
      | .TessEvaluation => compileTessEvalShader backend source options) =
      compileShaderOf backend type source options := by
  cases type <;> rfl

theorem compile_of_miss (h : self.shaderCache.lookup (cacheKeyOf call.source call.type) = none) :
    self.compile backend call.source call.type call.options call.now =
      (if stores backend call then
        self.cacheShader (cacheKeyOf call.source call.type) (call.binary backend) call.now
      else self, compiled backend call) := by
  obtain ⟨source, type, options, now⟩ := call
  simp only [compile, getCachedShader, h, stores, compiled]
  by_cases hsource : validateSource source
  · simp only [hsource, Bool.not_true, Bool.false_eq_true, if_false, if_true]
    rw [compileShaderOf_switch]
    cases hshader : compileShaderOf backend type source options with
    | none => rfl
    | some shader =>
      have hbinary : shader.binaryData = compileToSpirV backend source type options := by
        rw [(binaryData_of_compiled hshader).1]
        rfl
      simp only [Option.any_some, hbinary, Call.binary]
      split <;> rfl
  · simp [hsource]

theorem compile_constructed : (constructed.compile backend call.source call.type call.options call.now).2 =
    compiled backend call := by
  rw [compile_of_miss rfl]

/-- An entry for a key is an answer for its source and type, and for no others. -/
theorem table_insert (self : ShaderCompiler) (source : String) (type : ShaderType) (entry : CacheEntry) :
    table backend { shaderCache := self.shaderCache.insert (cacheKeyOf source type) entry } =
      Function.update (self.table backend) (source, type)
        (some (some (createShaderFromBinary backend entry.shaderBinary type))) := by
  funext k
  by_cases hk : k = (source, type)
  · rw [hk, Function.update_self, table, AList.lookup_insert]
    rfl
  · have hne : cacheKeyOf k.1 k.2 ≠ cacheKeyOf source type := by
      intro heq
      obtain ⟨hsource, htype⟩ := cacheKeyOf_inj heq
      exact hk (Prod.ext hsource htype)
    rw [Function.update_of_ne hk, table, AList.lookup_insert_ne hne]
    rfl

/-- What `compile` stores is the binary of the shader that it returns. -/
theorem compiled_of_stores (h : stores backend call = true) :
    compiled backend call = some (createShaderFromBinary backend (call.binary backend) call.type) := by
  obtain ⟨shader, hshader, -⟩ := (Option.any_eq_true _ _).mp h
  rw [hshader]
  rw [compiled, Option.ite_none_right_eq_some] at hshader
  rw [(binaryData_of_compiled hshader.2).1]
  rfl

theorem stores_iff : stores backend call = true ↔ validateSource call.source = true ∧
    call.binary backend ≠ [] ∧ backend.vkCreateShaderModule (call.binary backend) = true := by
  constructor
  · intro h
    obtain ⟨shader, hshader, hvalid⟩ := (Option.any_eq_true _ _).mp h
    rw [compiled, Option.ite_none_right_eq_some] at hshader
    obtain ⟨hbinary, hne⟩ := binaryData_of_compiled hshader.2
    rw [hbinary] at hvalid
    exact ⟨hshader.1, hne, hvalid⟩
  · rintro ⟨hsource, hne, hvalid⟩
    have hnonempty : (!(call.binary backend).isEmpty) = true := by simpa using hne
    rw [Call.binary] at hnonempty
    rw [stores, compiled, if_pos hsource]
    simp only [compileShaderOf]
    rw [if_pos hnonempty]
    exact hvalid

/-- A call looks up its own source and type, and leaves the table as a call with
a table of results does. -/
theorem table_compile (self : ShaderCompiler) (call : Call) :
    table backend (self.compile backend call.source call.type call.options call.now).1 =
      Memo.next Call.key (compiled backend) (stores backend) (self.table backend) call := by
  unfold Memo.next
  cases hlookup : self.shaderCache.lookup (cacheKeyOf call.source call.type) with
  | some entry =>
    have hold : self.table backend call.key =
        some (some (createShaderFromBinary backend entry.shaderBinary call.type)) := by
      rw [Call.key, table, hlookup]
      rfl
    rw [compile_of_hit hlookup, table_insert, ← hold, if_neg (by simp [hold])]
    exact Function.update_eq_self call.key (self.table backend)
  | none =>
    have hnew : self.table backend call.key = none := by
      rw [Call.key, table, hlookup]
      rfl
    rw [compile_of_miss hlookup]
    by_cases hstores : stores backend call
    · rw [if_pos hstores, if_pos ⟨hnew, hstores⟩, cacheShader, table_insert, compiled_of_stores hstores]
      rfl
    · rw [if_neg hstores, if_neg (fun h => hstores h.2)]

theorem compile_answer (self : ShaderCompiler) (call : Call) :
    (self.compile backend call.source call.type call.options call.now).2 =
      Memo.answer Call.key (compiled backend) (self.table backend) call := by
  unfold Memo.answer
  cases hlookup : self.shaderCache.lookup (cacheKeyOf call.source call.type) with
  | some entry =>
    rw [compile_of_hit hlookup, Call.key, table, hlookup]
    rfl
  | none =>
    rw [compile_of_miss hlookup, Call.key, table, hlookup]
    rfl

theorem table_constructed (backend : Backend) : table backend constructed = fun _ => none := rfl

theorem binary_congr {first second : Call} (hsource : first.source = second.source)
    (htype : first.type = second.type)
    (hdebug : first.options.enableDebugInfo = second.options.enableDebugInfo) :
    second.binary backend = first.binary backend := by
  simp only [Call.binary, compileToSpirV, hsource, htype, hdebug]

/-- Calls that agree return the same shader where the first one is cached. -/
theorem agree_iff (first second : Call) :
    Memo.Agree Call.key (compiled backend) (stores backend) first second ↔ Agrees backend first second := by
  unfold Memo.Agree Agrees
  constructor
  · intro h hsource htype _ hvalid hne hmodule
    have hstores : stores backend first = true := stores_iff.mpr ⟨hvalid, hne, hmodule⟩
    have heq := h (Prod.ext hsource htype) hstores
    rw [compiled_of_stores hstores, compiled, Option.ite_none_right_eq_some] at heq
    exact (congrArg Shader.binaryData (binaryData_of_compiled heq.2).1).symm
  · intro h hkey hstores
    obtain ⟨hsource, htype⟩ := Prod.mk.inj hkey
    obtain ⟨hvalid, hne, hmodule⟩ := stores_iff.mp hstores
    have hbinary : second.binary backend = first.binary backend := by
      by_cases hdebug : first.options.enableDebugInfo = second.options.enableDebugInfo
      · exact binary_congr hsource htype hdebug
      · exact h hsource htype hdebug hvalid hne hmodule
    have hsecond : stores backend second = true := by
      rw [stores_iff, hbinary, ← hsource]
      exact ⟨hvalid, hne, hmodule⟩
    rw [compiled_of_stores hstores, compiled_of_stores hsecond, hbinary, htype]

/-- Every call of a run is transparent exactly when no two of its calls differ
in the binary and in nothing that the key is made of. -/
theorem along_transparent_iff (backend : Backend) (calls : List Call) :
    Along (step backend) (fun self call _ => Transparent backend self call) constructed calls ↔
      calls.Pairwise (Agrees backend) := by
  have hpairwise : calls.Pairwise (Memo.Agree Call.key (compiled backend) (stores backend)) ↔
      calls.Pairwise (Agrees backend) := List.Pairwise.iff agree_iff
  rw [← hpairwise, ← Memo.along_answer_iff, ← table_constructed backend]
  refine along_iff_of_simulation (table backend) ?_ ?_ calls constructed
  · intro self call
    rw [step, Option.map_some, table_compile]
  · intro self call _ _
    rw [Transparent, compile_answer, compile_constructed]

/-- A compiler that puts the debug information behind the other words. -/
def debugBackend : Backend where
  parse _ _ _ := true
  link _ _ _ := true
  GlslangToSpv _ _ messages := 0x07230203 :: if .EShMsgDebugInfo ∈ messages then [8] else []
  vkCreateShaderModule _ := true

/-- The second call asks for debug information and gets the binary of the first. -/
theorem options_not_in_key :
    ¬ Along (step debugBackend) (fun self call _ => Transparent debugBackend self call) constructed
        [⟨"void main() \x7b\x7d", .Vertex, {}, 0⟩,
          ⟨"void main() \x7b\x7d", .Vertex, { enableDebugInfo := true }, 0⟩] := by
  intro h
  have hsecond := ((h _ rfl).2 _ rfl).1
  revert hsecond
  unfold Transparent
  decide

end Transparency

end ShaderCompiler

end Kernel.Memory
