import KernelcModerne.Lib.AListTotal
import KernelcModerne.Lib.LeastScan
import KernelcModerne.Memory.ShaderCompiler

open Transition

namespace Kernel

open Memory

namespace EnhancedShaderManager

structure CacheEntry where
  shaderBinary : List UInt8
  hash : String
  lastUsed : Int
  compiledShader : Shader

/-- A cache. -/
abbrev Cache := AList fun _ : String => CacheEntry

/-- The order in which a loop visits the entries of a cache. -/
structure Visit where
  order (shaderCache : Cache) : List (Sigma fun _ : String => CacheEntry)
  perm (shaderCache : Cache) : (order shaderCache).Perm shaderCache.entries

end EnhancedShaderManager

open EnhancedShaderManager

structure EnhancedShaderManager where
  shaderCache : Cache
  compiler : ShaderCompiler

namespace EnhancedShaderManager

def MAX_CACHE_SIZE : Nat := 1024

/-- Seconds. -/
def CACHE_TIMEOUT : Int := 3600

def constructed : EnhancedShaderManager where
  shaderCache := ∅
  compiler := ShaderCompiler.constructed

def defaultVertexShader : String :=
  "
            \x23version 450
            layout(location = 0) in vec3 position;
            layout(location = 1) in vec2 texCoord;
            layout(location = 2) in vec3 normal;
            
            layout(location = 0) out vec2 fragTexCoord;
            layout(location = 1) out vec3 fragNormal;
            
            layout(binding = 0) uniform UniformBufferObject \x7b
                mat4 model;
                mat4 view;
                mat4 proj;
            \x7d ubo;
            
            void main() \x7b
                gl_Position = ubo.proj * ubo.view * ubo.model * vec4(position, 1.0);
                fragTexCoord = texCoord;
                fragNormal = mat3(ubo.model) * normal;
            \x7d
        "

def defaultFragmentShader : String :=
  "
            \x23version 450
            layout(location = 0) in vec2 fragTexCoord;
            layout(location = 1) in vec3 fragNormal;
            
            layout(location = 0) out vec4 outColor;
            
            layout(binding = 1) uniform sampler2D texSampler;
            
            void main() \x7b
                vec3 lightDir = normalize(vec3(1.0, 1.0, 0.0));
                vec3 norm = normalize(fragNormal);
                float diff = max(dot(norm, lightDir), 0.0);
                
                vec3 ambient = vec3(0.1);
                vec3 diffuse = diff * vec3(1.0);
                
                vec4 texColor = texture(texSampler, fragTexCoord);
                outColor = vec4((ambient + diffuse) * texColor.rgb, texColor.a);
            \x7d
        "

def postProcessShader : String :=
  "
            \x23version 450
            layout(location = 0) in vec2 fragTexCoord;
            layout(location = 0) out vec4 outColor;
            
            layout(binding = 0) uniform sampler2D screenTexture;
            
            void main() \x7b
                vec3 color = texture(screenTexture, fragTexCoord).rgb;
                
                // Apply basic tone mapping
                color = color / (color + vec3(1.0));
                
                // Apply gamma correction
                float gamma = 2.2;
                color = pow(color, vec3(1.0/gamma));
                
                outColor = vec4(color, 1.0);
            \x7d
        "

def shadowVertexShader : String :=
  "
            \x23version 450
            layout(location = 0) in vec3 position;
            
            layout(binding = 0) uniform UniformBufferObject \x7b
                mat4 lightSpaceMatrix;
                mat4 model;
            \x7d ubo;
            
            void main() \x7b
                gl_Position = ubo.lightSpaceMatrix * ubo.model * vec4(position, 1.0);
            \x7d
        "

section Manager

variable (backend : ShaderCompiler.Backend) (sha256 : List UInt8 → List UInt8)

/-- Two lower case digits for each byte of the hash. -/
def calculateHash (binary : List UInt8) : String :=
  String.ofList ((sha256 binary).flatMap fun byte =>
    [Nat.digitChar (byte.toNat / 16), Nat.digitChar (byte.toNat % 16)])

def optimizeShader (shader : Shader) : Shader := ShaderCompiler.optimize shader .Maximum

/-- `now` is what the clock answers. -/
def compileShader (self : EnhancedShaderManager) (source : String) (type : ShaderType) (now : Int) :
    EnhancedShaderManager × Option Shader :=
  let (compiler, shader) := self.compiler.compile backend source type {} now
  ({ self with compiler }, shader.map optimizeShader)

def getCachedShader (self : EnhancedShaderManager) (shaderKey : String) (now : Int) :
    EnhancedShaderManager × Option CacheEntry :=
  match self.shaderCache.lookup shaderKey with
  | some entry =>
    let entry := { entry with lastUsed := now }
    ({ self with shaderCache := self.shaderCache.insert shaderKey entry }, some entry)
  | none => (self, none)

def lastUsed (it : Sigma fun _ : String => CacheEntry) : Int := it.2.lastUsed

def removeOldestEntry (self : EnhancedShaderManager) (visit : Visit) : EnhancedShaderManager :=
  match visit.order self.shaderCache with
  | [] => self
  | first :: rest =>
    let oldest := (first :: rest).foldl (LeastScan.better lastUsed) first
    { self with shaderCache := self.shaderCache.erase oldest.1 }

def cacheShader (self : EnhancedShaderManager) (shaderKey : String) (shader : Shader) (now : Int)
    (visit : Visit) : EnhancedShaderManager :=
  let binary := shader.binaryData
  let entry : CacheEntry := ⟨binary, calculateHash sha256 binary, now, shader⟩
  let self := if self.shaderCache.entries.length ≥ MAX_CACHE_SIZE then self.removeOldestEntry visit else self
  { self with shaderCache := self.shaderCache.insert shaderKey entry }

/-- `if (shader) cacheShader(shaderKey, shader)`. -/
def cacheCompiled (self : EnhancedShaderManager) (shaderKey : String) (shader : Option Shader) (now : Int)
    (visit : Visit) : EnhancedShaderManager :=
  match shader with
  | some shader => self.cacheShader sha256 shaderKey shader now visit
  | none => self

def cleanupCache (self : EnhancedShaderManager) (currentTime : Int) : EnhancedShaderManager :=
  { self with
    shaderCache :=
      { entries := self.shaderCache.entries.filter fun it => !(currentTime - lastUsed it > CACHE_TIMEOUT)
        nodupKeys := self.shaderCache.nodupKeys.sublist List.filter_sublist } }

/-- The clock and the loops answer each time anew. -/
def loadDefaultShaders (self : EnhancedShaderManager) (clock : Nat → Int) (visit : Nat → Visit) :
    EnhancedShaderManager :=
  let (self, vertexShader) := self.compileShader backend defaultVertexShader .Vertex (clock 0)
  let (self, fragmentShader) := self.compileShader backend defaultFragmentShader .Fragment (clock 1)
  let (self, postProcessFragShader) := self.compileShader backend postProcessShader .Fragment (clock 2)
  let (self, shadowVertShader) := self.compileShader backend shadowVertexShader .Vertex (clock 3)
  let self := self.cacheCompiled sha256 "default_vertex" vertexShader (clock 4) (visit 0)
  let self := self.cacheCompiled sha256 "default_fragment" fragmentShader (clock 5) (visit 1)
  let self := self.cacheCompiled sha256 "post_process" postProcessFragShader (clock 6) (visit 2)
  self.cacheCompiled sha256 "shadow_vertex" shadowVertShader (clock 7) (visit 3)

def initializeShaderSystem (self : EnhancedShaderManager) (clock : Nat → Int) (visit : Nat → Visit) :
    EnhancedShaderManager :=
  let self := { self with compiler := ShaderCompiler.constructed }
  let self := self.loadDefaultShaders backend sha256 clock visit
  self.cleanupCache (clock 8)

def getOrCompileShader (self : EnhancedShaderManager) (source : String) (type : ShaderType)
    (shaderKey : String) (clock : Nat → Int) (visit : Visit) : EnhancedShaderManager × Option Shader :=
  match self.getCachedShader shaderKey (clock 0) with
  | (self, some cached) => (self, some cached.compiledShader)
  | (self, none) =>
    let (self, shader) := self.compileShader backend source type (clock 1)
    (self.cacheCompiled sha256 shaderKey shader (clock 2) visit, shader)

inductive Call where
  | initializeShaderSystem (clock : Nat → Int) (visit : Nat → Visit)
  | getOrCompileShader (source : String) (type : ShaderType) (shaderKey : String) (clock : Nat → Int)
    (visit : Visit)

def step (self : EnhancedShaderManager) : Call → Option EnhancedShaderManager
  | .initializeShaderSystem clock visit => some (self.initializeShaderSystem backend sha256 clock visit)
  | .getOrCompileShader source type shaderKey clock visit =>
    some (self.getOrCompileShader backend sha256 source type shaderKey clock visit).1

end Manager

def Bounded (self : EnhancedShaderManager) : Prop := self.shaderCache.entries.length ≤ MAX_CACHE_SIZE

/-- No entry was used longer ago. -/
structure Oldest (shaderCache : Cache) (oldest : String) (removed : CacheEntry) : Prop where
  cached : shaderCache.lookup oldest = some removed
  least : ∀ key entry, shaderCache.lookup key = some entry → removed.lastUsed ≤ entry.lastUsed

/-- An oldest entry is removed and no other, and the key is present. -/
def ReplacesOldest (before after : Cache) (shaderKey : String) : Prop :=
  ∃ oldest removed, Oldest before oldest removed ∧ oldest ≠ shaderKey ∧ (after.lookup shaderKey).isSome ∧
    ∀ key, key ≠ shaderKey → after.lookup key = if key = oldest then none else before.lookup key

/-- The call compiles a shader that it does not find in the cache. -/
def CachesNew (backend : ShaderCompiler.Backend) (self : EnhancedShaderManager) (source : String)
    (type : ShaderType) (shaderKey : String) (now : Int) : Prop :=
  self.shaderCache.lookup shaderKey = none ∧ (self.compileShader backend source type now).2.isSome

/-- A call that caches a new shader into a full cache replaces an oldest entry. -/
def Replaces (backend : ShaderCompiler.Backend) (self : EnhancedShaderManager) (call : Call)
    (after : EnhancedShaderManager) : Prop :=
  match call with
  | .initializeShaderSystem _ _ => True
  | .getOrCompileShader source type shaderKey clock _ =>
    self.CachesNew backend source type shaderKey (clock 1) →
      self.shaderCache.entries.length = MAX_CACHE_SIZE → ReplacesOldest self.shaderCache after.shaderCache shaderKey

section Runs

variable {backend : ShaderCompiler.Backend} {sha256 : List UInt8 → List UInt8} {self : EnhancedShaderManager}

@[simp] theorem compileShader_shaderCache (backend : ShaderCompiler.Backend) (self : EnhancedShaderManager)
    (source : String) (type : ShaderType) (now : Int) :
    (self.compileShader backend source type now).1.shaderCache = self.shaderCache := rfl

/-- The search ends at an oldest entry. -/
theorem removeOldestEntry_spec (visit : Visit) (hne : self.shaderCache.entries ≠ []) :
    ∃ oldest removed, Oldest self.shaderCache oldest removed ∧
      (self.removeOldestEntry visit).shaderCache = self.shaderCache.erase oldest := by
  have hperm := visit.perm self.shaderCache
  unfold removeOldestEntry
  cases horder : visit.order self.shaderCache with
  | nil =>
    rw [horder] at hperm
    exact absurd hperm.nil_eq.symm hne
  | cons first rest =>
    rw [horder] at hperm
    -- The loop meets the first entry once more.
    have hfirst : LeastScan.better lastUsed first first = first := if_neg (lt_irrefl _)
    simp only [List.foldl_cons, hfirst]
    have holdest : rest.foldl (LeastScan.better lastUsed) first ∈ self.shaderCache.entries :=
      hperm.mem_iff.mp (LeastScan.foldl_better_mem first rest)
    refine ⟨_, _, ⟨AList.mem_lookup_iff.mpr holdest, ?_⟩, rfl⟩
    intro key entry hlookup
    have hmem : (⟨key, entry⟩ : Sigma fun _ : String => CacheEntry) ∈ first :: rest :=
      hperm.mem_iff.mpr (AList.mem_lookup_iff.mp hlookup)
    exact LeastScan.foldl_better_le (f := lastUsed) hmem

/-- Into a full cache a shader goes in the place of an oldest entry. -/
theorem cacheShader_cases (sha256 : List UInt8 → List UInt8) (self : EnhancedShaderManager)
    (shaderKey : String) (shader : Shader) (now : Int) (visit : Visit) :
    ∃ entry : CacheEntry,
      (self.shaderCache.entries.length < MAX_CACHE_SIZE ∧
        (self.cacheShader sha256 shaderKey shader now visit).shaderCache =
          self.shaderCache.insert shaderKey entry) ∨
      (∃ oldest removed, Oldest self.shaderCache oldest removed ∧
        (self.cacheShader sha256 shaderKey shader now visit).shaderCache =
          (self.shaderCache.erase oldest).insert shaderKey entry) := by
  refine ⟨⟨shader.binaryData, calculateHash sha256 shader.binaryData, now, shader⟩, ?_⟩
  simp only [cacheShader]
  by_cases hfull : self.shaderCache.entries.length ≥ MAX_CACHE_SIZE
  · right
    have hne : self.shaderCache.entries ≠ [] := by
      intro hnil
      rw [hnil] at hfull
      exact absurd hfull (by decide)
    obtain ⟨oldest, removed, holdest, hremove⟩ := removeOldestEntry_spec visit hne
    refine ⟨oldest, removed, holdest, ?_⟩
    rw [if_pos hfull, hremove]
  · left
    rw [if_neg hfull]
    exact ⟨not_le.mp hfull, rfl⟩

theorem Bounded.of_shaderCache (h : self.Bounded) {after : EnhancedShaderManager}
    (hcache : after.shaderCache = self.shaderCache) : after.Bounded := by
  rw [Bounded, hcache]
  exact h

theorem Bounded.cacheShader (h : self.Bounded) (shaderKey : String) (shader : Shader) (now : Int)
    (visit : Visit) : (self.cacheShader sha256 shaderKey shader now visit).Bounded := by
  obtain ⟨entry, ⟨hroom, hcache⟩ | ⟨oldest, removed, holdest, hcache⟩⟩ :=
    cacheShader_cases sha256 self shaderKey shader now visit
  · rw [Bounded, hcache]
    exact (AList.length_insert_le _ shaderKey entry).trans hroom
  · rw [Bounded, hcache]
    refine (AList.length_insert_le _ shaderKey entry).trans ?_
    rw [AList.length_erase_of_lookup holdest.cached]
    exact h

theorem Bounded.cacheCompiled (h : self.Bounded) (shaderKey : String) (shader : Option Shader) (now : Int)
    (visit : Visit) : (self.cacheCompiled sha256 shaderKey shader now visit).Bounded := by
  cases shader with
  | none => exact h
  | some shader => exact h.cacheShader shaderKey shader now visit

theorem Bounded.cleanupCache (h : self.Bounded) (currentTime : Int) : (self.cleanupCache currentTime).Bounded :=
  (List.length_filter_le _ _).trans h

theorem Bounded.of_compileShader (h : self.Bounded) {source : String} {type : ShaderType} {now : Int}
    {after : EnhancedShaderManager} {shader : Option Shader}
    (hcompile : self.compileShader backend source type now = (after, shader)) : after.Bounded := by
  have hcache := compileShader_shaderCache backend self source type now
  rw [hcompile] at hcache
  exact h.of_shaderCache hcache

theorem Bounded.loadDefaultShaders (h : self.Bounded) (clock : Nat → Int) (visit : Nat → Visit) :
    (self.loadDefaultShaders backend sha256 clock visit).Bounded := by
  unfold EnhancedShaderManager.loadDefaultShaders
  split
  next self' _ hvertex =>
  have hself := h.of_compileShader hvertex
  split
  next self' _ hfragment =>
  replace hself := hself.of_compileShader hfragment
  split
  next self' _ hpostProcess =>
  replace hself := hself.of_compileShader hpostProcess
  split
  next self' _ hshadow =>
  replace hself := hself.of_compileShader hshadow
  exact (((hself.cacheCompiled ..).cacheCompiled ..).cacheCompiled ..).cacheCompiled ..

theorem Bounded.initializeShaderSystem (h : self.Bounded) (clock : Nat → Int) (visit : Nat → Visit) :
    (self.initializeShaderSystem backend sha256 clock visit).Bounded := by
  have hself : { self with compiler := ShaderCompiler.constructed }.Bounded := h
  exact (hself.loadDefaultShaders clock visit).cleanupCache (clock 8)

/-- A miss leads to the compilation. -/
theorem getOrCompileShader_of_miss {shaderKey : String} (h : self.shaderCache.lookup shaderKey = none)
    (source : String) (type : ShaderType) (clock : Nat → Int) (visit : Visit) :
    (self.getOrCompileShader backend sha256 source type shaderKey clock visit).1 =
      (self.compileShader backend source type (clock 1)).1.cacheCompiled sha256 shaderKey
        (self.compileShader backend source type (clock 1)).2 (clock 2) visit := by
  simp only [getOrCompileShader, getCachedShader, h]

theorem Bounded.getOrCompileShader (h : self.Bounded) (source : String) (type : ShaderType)
    (shaderKey : String) (clock : Nat → Int) (visit : Visit) :
    (self.getOrCompileShader backend sha256 source type shaderKey clock visit).1.Bounded := by
  cases hlookup : self.shaderCache.lookup shaderKey with
  | some entry =>
    simp only [EnhancedShaderManager.getOrCompileShader, getCachedShader, hlookup]
    rw [Bounded, AList.length_insert_of_lookup hlookup]
    exact h
  | none =>
    rw [getOrCompileShader_of_miss hlookup]
    exact (h.of_shaderCache (compileShader_shaderCache ..)).cacheCompiled ..

/-- The step lemma for the bound. -/
theorem Bounded.step {call : Call} {after : EnhancedShaderManager} (h : self.Bounded)
    (hstep : step backend sha256 self call = some after) : after.Bounded := by
  cases call with
  | initializeShaderSystem clock visit =>
    obtain rfl := Option.some.inj hstep
    exact h.initializeShaderSystem clock visit
  | getOrCompileShader source type shaderKey clock visit =>
    obtain rfl := Option.some.inj hstep
    exact h.getOrCompileShader source type shaderKey clock visit

/-- The entry of the new key is not the one that goes. -/
theorem replacesOldest_cacheShader (self : EnhancedShaderManager) {shaderKey : String}
    (hnew : self.shaderCache.lookup shaderKey = none)
    (hfull : self.shaderCache.entries.length = MAX_CACHE_SIZE) (shader : Shader) (now : Int) (visit : Visit) :
    ReplacesOldest self.shaderCache (self.cacheShader sha256 shaderKey shader now visit).shaderCache
      shaderKey := by
  obtain ⟨entry, ⟨hroom, _⟩ | ⟨oldest, removed, holdest, hcache⟩⟩ :=
    cacheShader_cases sha256 self shaderKey shader now visit
  · exact absurd hfull hroom.ne
  · have hne : oldest ≠ shaderKey := by
      rintro rfl
      rw [holdest.cached] at hnew
      cases hnew
    refine ⟨oldest, removed, holdest, hne, ?_, ?_⟩
    · rw [hcache, AList.lookup_insert]
      rfl
    · intro key hkey
      rw [hcache, AList.lookup_insert_ne hkey]
      split
      · next heq => rw [heq, AList.lookup_erase]
      · next hother => exact AList.lookup_erase_ne hother

theorem replaces_step {call : Call} {after : EnhancedShaderManager}
    (hstep : step backend sha256 self call = some after) : Replaces backend self call after := by
  cases call with
  | initializeShaderSystem clock visit => trivial
  | getOrCompileShader source type shaderKey clock visit =>
    obtain rfl := Option.some.inj hstep
    rintro ⟨hnew, hcompiled⟩ hfull
    obtain ⟨shader, hshader⟩ := Option.isSome_iff_exists.mp hcompiled
    rw [getOrCompileShader_of_miss hnew, hshader]
    exact replacesOldest_cacheShader (self.compileShader backend source type (clock 1)).1 hnew hfull shader
      (clock 2) visit

/-- In every run the cache stays within its bound, and a new shader takes the
place of an oldest entry once the cache is full. -/
theorem run_bounded_replacing (backend : ShaderCompiler.Backend) (sha256 : List UInt8 → List UInt8)
    (calls : List Call) :
    Always (step backend sha256) Bounded constructed calls ∧
      Along (step backend sha256) (Replaces backend) constructed calls := by
  have hconstructed : constructed.Bounded := Nat.zero_le _
  constructor
  · exact always_of_step (fun _ _ _ h hstep => h.step hstep) calls hconstructed
  · apply along_of_forall
    intro self call after hstep
    exact replaces_step hstep

end Runs

end EnhancedShaderManager

end Kernel
