import Mathlib.Data.List.Infix

namespace Transition

variable {σ α : Type*}

/-- The state after the operations `ops`, each of which may be undefined
(`none`) in the state it is applied to. -/
def run (step : σ → α → Option σ) (s : σ) (ops : List α) : Option σ :=
  ops.foldlM step s

@[simp] theorem run_nil (step : σ → α → Option σ) (s : σ) : run step s [] = some s := rfl

@[simp] theorem run_cons (step : σ → α → Option σ) (s : σ) (a : α) (ops : List α) :
    run step s (a :: ops) = (step s a).bind (run step · ops) := rfl

theorem run_append (step : σ → α → Option σ) (s : σ) (first second : List α) :
    run step s (first ++ second) = (run step s first).bind (run step · second) :=
  List.foldlM_append

/-- What every step preserves holds after every run. -/
theorem run_invariant {step : σ → α → Option σ} (P : σ → Prop)
    (hstep : ∀ s a s', P s → step s a = some s' → P s') (ops : List α) {s t : σ}
    (hs : P s) (hrun : run step s ops = some t) : P t := by
  induction ops generalizing s with
  | nil =>
    rw [run_nil, Option.some.injEq] at hrun
    exact hrun ▸ hs
  | cons a ops ih =>
    rw [run_cons, Option.bind_eq_some_iff] at hrun
    obtain ⟨s', ha, hrun⟩ := hrun
    exact ih (hstep s a s' hs ha) hrun

/-- Where every step is defined on what has a property and keeps it, every run
is, and does. -/
theorem run_total {step : σ → α → Option σ} (P : σ → Prop)
    (hstep : ∀ s a, P s → ∃ s', step s a = some s' ∧ P s') (ops : List α) {s : σ} (hs : P s) :
    ∃ t, run step s ops = some t ∧ P t := by
  induction ops generalizing s with
  | nil => exact ⟨s, rfl, hs⟩
  | cons a ops ih =>
    obtain ⟨s', ha, hs'⟩ := hstep s a hs
    obtain ⟨t, hrun, ht⟩ := ih hs'
    exact ⟨t, by rw [run_cons, ha, Option.bind_some, hrun], ht⟩

/-- Every transition that the run of `ops` from `s` takes satisfies `R`. -/
def Along (step : σ → α → Option σ) (R : σ → α → σ → Prop) : σ → List α → Prop
  | _, [] => True
  | s, a :: ops => ∀ s', step s a = some s' → R s a s' ∧ Along step R s' ops

/-- Every operation of the run meets `G` in the state it is applied to. -/
abbrev Guarded (step : σ → α → Option σ) (G : σ → α → Prop) : σ → List α → Prop :=
  Along step fun s a _ => G s a

/-- `P` holds in every state that the run reaches. -/
def Always (step : σ → α → Option σ) (P : σ → Prop) (s : σ) (ops : List α) : Prop :=
  P s ∧ Along step (fun _ _ s' => P s') s ops

/-- `Along` speaks about each transition taken after a prefix of the run. -/
theorem along_iff_forall_split {step : σ → α → Option σ} {R : σ → α → σ → Prop}
    {s : σ} {ops : List α} :
    Along step R s ops ↔ ∀ first a rest, ops = first ++ a :: rest →
      ∀ t t', run step s first = some t → step t a = some t' → R t a t' := by
  induction ops generalizing s with
  | nil => simp [Along]
  | cons b ops ih =>
    constructor
    · intro h first a rest hsplit t t' hrun ha
      cases first with
      | nil =>
        obtain ⟨rfl, rfl⟩ : b = a ∧ ops = rest := by simpa using hsplit
        rw [run_nil, Option.some.injEq] at hrun
        subst hrun
        exact (h t' ha).1
      | cons c first =>
        obtain ⟨rfl, rfl⟩ : b = c ∧ ops = first ++ a :: rest := by simpa using hsplit
        rw [run_cons, Option.bind_eq_some_iff] at hrun
        obtain ⟨s', hb, hrun⟩ := hrun
        exact ih.mp (h s' hb).2 first a rest rfl t t' hrun ha
    · intro h s' hb
      refine ⟨h [] b ops rfl s s' rfl hb, ih.mpr ?_⟩
      intro first a rest hsplit t t' hrun ha
      refine h (b :: first) a rest (by rw [hsplit]; rfl) t t' ?_ ha
      rw [run_cons, hb]
      exact hrun

/-- `Always` speaks about the state after each prefix of the run. -/
theorem always_iff_forall_reached {step : σ → α → Option σ} {P : σ → Prop} {s : σ} {ops : List α} :
    Always step P s ops ↔ ∀ first, first <+: ops → ∀ t, run step s first = some t → P t := by
  constructor
  · rintro ⟨hs, h⟩ first ⟨rest, rfl⟩ t hrun
    cases List.eq_nil_or_concat first with
    | inl hnil =>
      rw [hnil, run_nil, Option.some.injEq] at hrun
      exact hrun ▸ hs
    | inr hconcat =>
      obtain ⟨front, a, rfl⟩ := hconcat
      rw [List.concat_eq_append, run_append, Option.bind_eq_some_iff] at hrun
      obtain ⟨u, hu, ha⟩ := hrun
      rw [run_cons, Option.bind_eq_some_iff] at ha
      obtain ⟨u', hu', ht⟩ := ha
      rw [run_nil, Option.some.injEq] at ht
      subst ht
      exact along_iff_forall_split.mp h front a rest (by simp) u u' hu hu'
  · intro h
    refine ⟨h [] (List.nil_append ops ▸ List.prefix_append [] ops) s rfl, along_iff_forall_split.mpr ?_⟩
    intro first a rest hsplit t t' hrun ha
    refine h (first ++ [a]) ⟨rest, by simp [hsplit]⟩ t' ?_
    rw [run_append, hrun]
    simp [ha]

/-- An invariant that every step preserves and that implies `R` on each step
gives `R` along every run. -/
theorem along_of_step {step : σ → α → Option σ} {R : σ → α → σ → Prop} (Inv : σ → Prop)
    (hstep : ∀ s a s', Inv s → step s a = some s' → R s a s' ∧ Inv s')
    (ops : List α) {s : σ} (hs : Inv s) : Along step R s ops := by
  induction ops generalizing s with
  | nil => trivial
  | cons a ops ih =>
    intro s' ha
    obtain ⟨hR, hInv⟩ := hstep s a s' hs ha
    exact ⟨hR, ih hInv⟩

/-- The rule for runs under an assumption: an invariant that the steps meeting
`G` preserve, and that implies `R` on them, gives `R` along every run whose
steps all meet `G`. -/
theorem along_of_guarded {step : σ → α → Option σ} {G : σ → α → Prop} {R : σ → α → σ → Prop}
    (Inv : σ → Prop) (hstep : ∀ s a s', Inv s → G s a → step s a = some s' → R s a s' ∧ Inv s')
    (ops : List α) {s : σ} (hs : Inv s) (hG : Guarded step G s ops) : Along step R s ops := by
  induction ops generalizing s with
  | nil => trivial
  | cons a ops ih =>
    intro s' ha
    obtain ⟨hguard, hrest⟩ := hG s' ha
    obtain ⟨hR, hInv⟩ := hstep s a s' hs hguard ha
    exact ⟨hR, ih hInv hrest⟩

/-- What is true of every step holds along every run. -/
theorem along_of_forall {step : σ → α → Option σ} {R : σ → α → σ → Prop}
    (hR : ∀ s a s', step s a = some s' → R s a s') (ops : List α) (s : σ) : Along step R s ops :=
  along_of_step (fun _ => True) (fun s a s' _ ha => ⟨hR s a s' ha, trivial⟩) ops trivial

/-- An invariant that every step preserves holds in every state of a run. -/
theorem always_of_step {step : σ → α → Option σ} {P : σ → Prop}
    (hstep : ∀ s a s', P s → step s a = some s' → P s') (ops : List α) {s : σ} (hs : P s) :
    Always step P s ops := by
  refine ⟨hs, along_of_step P (fun s a s' h ha => ?_) ops hs⟩
  have hnext := hstep s a s' h ha
  exact ⟨hnext, hnext⟩

/-- One that the steps meeting `G` preserve holds in every state of a run of
such steps. -/
theorem always_of_guarded {step : σ → α → Option σ} {G : σ → α → Prop} {P : σ → Prop}
    (hstep : ∀ s a s', P s → G s a → step s a = some s' → P s') (ops : List α) {s : σ} (hs : P s)
    (hG : Guarded step G s ops) : Always step P s ops := by
  refine ⟨hs, along_of_guarded P (fun s a s' h hguard ha => ?_) ops hs hG⟩
  have hnext := hstep s a s' h hguard ha
  exact ⟨hnext, hnext⟩

/-- What holds of all operations guards every run of them. -/
theorem guarded_of_forall {step : σ → α → Option σ} {Q : α → Prop} {ops : List α} (hQ : ∀ a ∈ ops, Q a) (s : σ) :
    Guarded step (fun _ a => Q a) s ops := by
  induction ops generalizing s with
  | nil => trivial
  | cons a ops ih =>
    obtain ⟨ha, hrest⟩ := List.forall_mem_cons.mp hQ
    exact fun s' _ => ⟨ha, ih hrest s'⟩

/-- A guard on the operations alone joins the guards of a run. -/
theorem guarded_and_of_forall {step : σ → α → Option σ} {G : σ → α → Prop} {Q : α → Prop} {s : σ}
    {ops : List α} (hQ : ∀ a ∈ ops, Q a) (hG : Guarded step G s ops) :
    Guarded step (fun s a => Q a ∧ G s a) s ops := by
  induction ops generalizing s with
  | nil => trivial
  | cons a ops ih =>
    intro s' ha
    obtain ⟨hguard, hrest⟩ := hG s' ha
    exact ⟨⟨hQ a List.mem_cons_self, hguard⟩, ih (fun b hb => hQ b (List.mem_cons_of_mem a hb)) hrest⟩

/-- The exactness rule where the invariant knows the operations to come. -/
theorem along_iff_along_rest {step : σ → α → Option σ} {R Q : σ → α → σ → Prop} (Inv : σ → List α → Prop)
    (hiff : ∀ s a rest s', Inv s (a :: rest) → step s a = some s' → (R s a s' ↔ Q s a s'))
    (hkeep : ∀ s a rest s', Inv s (a :: rest) → step s a = some s' → R s a s' → Inv s' rest)
    (ops : List α) {s : σ} (hs : Inv s ops) : Along step R s ops ↔ Along step Q s ops := by
  induction ops generalizing s with
  | nil => exact Iff.rfl
  | cons a ops ih =>
    constructor
    · intro h s' ha
      obtain ⟨hR, hrest⟩ := h s' ha
      exact ⟨(hiff s a ops s' hs ha).mp hR, (ih (hkeep s a ops s' hs ha hR)).mp hrest⟩
    · intro h s' ha
      obtain ⟨hQ, hrest⟩ := h s' ha
      have hR := (hiff s a ops s' hs ha).mpr hQ
      exact ⟨hR, (ih (hkeep s a ops s' hs ha hR)).mpr hrest⟩

/-- The exactness rule: where the steps that meet `R` preserve an invariant
under which `R` and `Q` agree on each step, they agree on every run. -/
theorem along_iff_along {step : σ → α → Option σ} {R Q : σ → α → σ → Prop} (Inv : σ → Prop)
    (hiff : ∀ s a s', Inv s → step s a = some s' → (R s a s' ↔ Q s a s'))
    (hkeep : ∀ s a s', Inv s → step s a = some s' → R s a s' → Inv s')
    (ops : List α) {s : σ} (hs : Inv s) : Along step R s ops ↔ Along step Q s ops :=
  along_iff_along_rest (fun s _ => Inv s) (fun s a _ s' h ha => hiff s a s' h ha)
    (fun s a _ s' h ha hR => hkeep s a s' h ha hR) ops hs

/-- Where `R` and `Q` agree on every step they agree on every run. -/
theorem along_congr {step : σ → α → Option σ} {R Q : σ → α → σ → Prop}
    (hiff : ∀ s a s', step s a = some s' → (R s a s' ↔ Q s a s')) (ops : List α) (s : σ) :
    Along step R s ops ↔ Along step Q s ops :=
  along_iff_along (fun _ => True) (fun s a s' _ ha => hiff s a s' ha) (fun _ _ _ _ _ _ => trivial) ops trivial

/-- The exactness rule for invariants: if under an invariant of all steps a step
keeps `P` exactly when its guard holds, then `P` holds all along a run exactly
when all its steps meet their guards. -/
theorem always_iff_guarded {step : σ → α → Option σ} {P : σ → Prop} {G : σ → α → Prop}
    (Inv : σ → Prop) (hInv : ∀ s a s', Inv s → step s a = some s' → Inv s')
    (hiff : ∀ s a s', Inv s → P s → step s a = some s' → (P s' ↔ G s a))
    (ops : List α) {s : σ} (hs : Inv s) (hP : P s) :
    Always step P s ops ↔ Guarded step G s ops := by
  have h : Along step (fun _ _ s' => P s') s ops ↔ Along step (fun s a _ => G s a) s ops :=
    along_iff_along (fun s => Inv s ∧ P s) (fun s a s' hs ha => hiff s a s' hs.1 hs.2 ha)
      (fun s a s' hs ha hP' => ⟨hInv s a s' hs.1 ha, hP'⟩) ops ⟨hs, hP⟩
  exact ⟨fun hall => h.mp hall.2, fun hall => ⟨hP, h.mpr hall⟩⟩

/-- The same where no other invariant is needed. -/
theorem always_iff_guarded_of_step {step : σ → α → Option σ} {P : σ → Prop} {G : σ → α → Prop}
    (hiff : ∀ s a s', P s → step s a = some s' → (P s' ↔ G s a)) (ops : List α) {s : σ} (hP : P s) :
    Always step P s ops ↔ Guarded step G s ops :=
  always_iff_guarded (fun _ => True) (fun _ _ _ _ _ => trivial) (fun s a s' _ h ha => hiff s a s' h ha) ops trivial hP

/-- Runs of a system whose states stand for those of another. -/
theorem along_iff_of_simulation {τ : Type*} {step : σ → α → Option σ} {step' : τ → α → Option τ}
    {R : σ → α → σ → Prop} {R' : τ → α → τ → Prop} (φ : σ → τ)
    (hstep : ∀ s a, step' (φ s) a = (step s a).map φ)
    (hR : ∀ s a s', step s a = some s' → (R s a s' ↔ R' (φ s) a (φ s'))) (ops : List α) (s : σ) :
    Along step R s ops ↔ Along step' R' (φ s) ops := by
  induction ops generalizing s with
  | nil => exact Iff.rfl
  | cons a ops ih =>
    simp only [Along, hstep, Option.map_eq_some_iff]
    constructor
    · rintro h _ ⟨s', ha, rfl⟩
      obtain ⟨hfirst, hrest⟩ := h s' ha
      exact ⟨(hR s a s' ha).mp hfirst, (ih s').mp hrest⟩
    · intro h s' ha
      obtain ⟨hfirst, hrest⟩ := h (φ s') ⟨s', ha, rfl⟩
      exact ⟨(hR s a s' ha).mpr hfirst, (ih s').mpr hrest⟩

theorem Always.imp {step : σ → α → Option σ} {P Q : σ → Prop} (hPQ : ∀ s, P s → Q s)
    {s : σ} {ops : List α} (h : Always step P s ops) : Always step Q s ops := by
  rw [always_iff_forall_reached] at h ⊢
  exact fun first hfirst t hrun => hPQ t (h first hfirst t hrun)

/-- What `observe` sees of the transitions that the run takes, in their order. -/
def trace {β : Type*} (step : σ → α → Option σ) (observe : σ → α → List β) : σ → List α → List β
  | _, [] => []
  | s, a :: ops => observe s a ++ (match step s a with
    | some s' => trace step observe s' ops
    | none => [])

/-- A relation between what was observed and the state that every step keeps
holds after every run. -/
theorem trace_invariant {β : Type*} {step : σ → α → Option σ} {observe : σ → α → List β} (I : List β → σ → Prop)
    (hstep : ∀ log s a s', I log s → step s a = some s' → I (log ++ observe s a) s') (ops : List α) {s t : σ}
    (hs : I [] s) (hrun : run step s ops = some t) : I (trace step observe s ops) t := by
  suffices hfrom : ∀ log s, I log s → run step s ops = some t → I (log ++ trace step observe s ops) t from
    hfrom [] s hs hrun
  clear hs hrun
  induction ops with
  | nil =>
    intro log s hs hrun
    rw [run_nil, Option.some.injEq] at hrun
    subst hrun
    simpa [trace] using hs
  | cons a ops ih =>
    intro log s hs hrun
    rw [run_cons, Option.bind_eq_some_iff] at hrun
    obtain ⟨s', ha, hrun⟩ := hrun
    have hrest := ih (log ++ observe s a) s' (hstep log s a s' hs ha) hrun
    simpa [trace, ha] using hrest

end Transition
