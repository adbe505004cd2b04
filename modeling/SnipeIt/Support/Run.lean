import Mathlib.Tactic.Common

/-! # Labelled runs of a transition relation

A run lists the labels of its steps, the last one at the end, so that a fact
about every reachable state is an induction on the step that was taken last.
-/

namespace SnipeIt.Support

variable {σ τ α : Type*}

/-- `Run step s as t`: the labels `as` lead from `s` to `t`. -/
inductive Run (step : σ → α → σ → Prop) (s : σ) : List α → σ → Prop where
  | nil : Run step s [] s
  | snoc {as : List α} {t : σ} {a : α} {u : σ} :
      Run step s as t → step t a u → Run step s (as ++ [a]) u

/-- The state that the labels lead to, where a label has at most one step. -/
def exec (apply : σ → α → Option σ) (s : σ) : List α → Option σ
  | [] => some s
  | a :: as => (apply s a).bind fun t => exec apply t as

/-- The steps of a relation that start where `good` allows them. -/
def Guarded (good : σ → α → Prop) (step : σ → α → σ → Prop) : σ → α → σ → Prop :=
  fun s a t => good s a ∧ step s a t

/-- The steps of a relation that do what `ok` asks of them. -/
def Meeting (ok step : σ → α → σ → Prop) : σ → α → σ → Prop :=
  fun s a t => step s a t ∧ ok s a t

/-- The steps of a relation that lead into `P`. -/
def Into (P : σ → Prop) (step : σ → α → σ → Prop) : σ → α → σ → Prop :=
  Meeting (fun _ _ t => P t) step

namespace Run

variable {step : σ → α → σ → Prop} {s t u : σ} {as bs : List α}

theorem single {a : α} (h : step s a t) : Run step s [a] t := by
  simpa using Run.snoc Run.nil h

theorem append (h : Run step s as t) (h' : Run step t bs u) : Run step s (as ++ bs) u := by
  induction h' with
  | nil => simpa using h
  | snoc _ hstep ih =>
    rw [← List.append_assoc]
    exact ih.snoc hstep

theorem cons {a : α} (h : step s a t) (h' : Run step t bs u) : Run step s (a :: bs) u :=
  (single h).append h'

theorem of_foldl (f : σ → α → σ) (s : σ) (as : List α) :
    Run (fun s a t => t = f s a) s as (as.foldl f s) := by
  induction as generalizing s with
  | nil => exact nil
  | cons a as ih => exact cons rfl (ih (f s a))

theorem of_exec {apply : σ → α → Option σ} (h : exec apply s as = some t) :
    Run (fun s a t => apply s a = some t) s as t := by
  induction as generalizing s with
  | nil =>
    cases h
    exact nil
  | cons a as ih =>
    obtain ⟨u, hu, hrest⟩ := Option.bind_eq_some_iff.mp h
    exact cons hu (ih hrest)

/-- A property of the first state that every step preserves holds in the last one. -/
theorem invariant {P : σ → Prop} (h : Run step s as t) (h0 : P s)
    (hstep : ∀ s a t, P s → step s a t → P t) : P t := by
  induction h with
  | nil => exact h0
  | snoc _ hs ih => exact hstep _ _ _ ih hs

theorem mono {step' : σ → α → σ → Prop} (h : Run step s as t)
    (hsub : ∀ s a t, step s a t → step' s a t) : Run step' s as t := by
  induction h with
  | nil => exact nil
  | snoc _ hs ih => exact ih.snoc (hsub _ _ _ hs)

theorem of_exec_guarded {apply : σ → α → Option σ} {good : σ → α → Bool}
    (h : exec (fun s a => if good s a then apply s a else none) s as = some t) :
    Run (Guarded (good · ·) fun s a t => apply s a = some t) s as t := by
  refine (of_exec h).mono fun s a t hstep => ?_
  split_ifs at hstep with hgood
  exact ⟨hgood, hstep⟩

/-- Guarding the steps only removes runs. -/
theorem of_guarded {good : σ → α → Prop} (h : Run (Guarded good step) s as t) :
    Run step s as t :=
  h.mono (fun _ _ _ hs => hs.2)

theorem guard {ok : α → Prop} (h : Run step s as t) (hall : ∀ a ∈ as, ok a) :
    Run (Guarded (fun _ a => ok a) step) s as t := by
  induction h with
  | nil => exact nil
  | @snoc as t a u _ hs ih =>
    have hrest := ih fun b hb => hall b (List.mem_append_left _ hb)
    exact hrest.snoc ⟨hall a (List.mem_append_right _ (List.mem_singleton_self a)), hs⟩

/-- A history that grows by at most one entry a step: all entries of a run are as they should be
exactly when every step started where `good` allows it, if that is what decides about the entry. -/
theorem logged_iff_guarded {β : Type*} {log : σ → List β} {ok : β → Prop} {good : σ → α → Prop}
    {I : σ → Prop} (hinv : I s) (hlog : log s = [])
    (hstep : ∀ s a t, I s → step s a t → I t ∧
      ((log t = log s ∧ good s a) ∨ ∃ e, log t = log s ++ [e] ∧ (ok e ↔ good s a)))
    (h : Run step s as t) : (∀ e ∈ log t, ok e) ↔ Run (Guarded good step) s as t := by
  have hreach : ∀ {as t}, Run step s as t → I t := fun h =>
    h.invariant hinv (fun s a t hs hst => (hstep s a t hs hst).1)
  constructor
  · intro hall
    induction h with
    | nil => exact nil
    | @snoc as t a u hrun hs ih =>
      rcases (hstep t a u (hreach hrun) hs).2 with ⟨hsame, hgood⟩ | ⟨e, happend, hiff⟩
      · exact (ih (hsame ▸ hall)).snoc ⟨hgood, hs⟩
      · rw [happend] at hall
        have hlast := hall e (List.mem_append_right _ (List.mem_singleton_self e))
        exact (ih fun e he => hall e (List.mem_append_left _ he)).snoc ⟨hiff.mp hlast, hs⟩
  · intro hguarded
    clear h
    induction hguarded with
    | nil => simp [hlog]
    | @snoc as t a u hrun hs ih =>
      rcases (hstep t a u (hreach hrun.of_guarded) hs.2).2 with ⟨hsame, -⟩ | ⟨e, happend, hiff⟩
      · rwa [hsame]
      · intro e' he'
        rw [happend] at he'
        rcases List.mem_append.mp he' with hold | hnew
        · exact ih e' hold
        · rw [List.mem_singleton.mp hnew]
          exact hiff.mpr hs.1

/-- If, from a state of the invariant, the steps that `good` allows keep it and do what `ok` asks,
then the guarded runs do so all along. -/
theorem meeting_of_guarded {ok : σ → α → σ → Prop} {I : σ → Prop} {good : σ → α → Prop}
    (hinv : I s) (hgood : ∀ s a t, I s → step s a t → good s a → I t ∧ ok s a t)
    (h : Run (Guarded good step) s as t) : Run (Meeting ok step) s as t := by
  have hreach {as : List α} {t : σ} (h : Run (Guarded good step) s as t) : I t :=
    h.invariant hinv fun s a t hs hst => (hgood s a t hs hst.2 hst.1).1
  induction h with
  | nil => exact nil
  | @snoc as t a u hrun hs ih => exact ih.snoc ⟨hs.2, (hgood t a u (hreach hrun) hs.2 hs.1).2⟩

/-- If moreover the other steps do not do what `ok` asks, the runs whose steps are all `ok` are
the guarded ones. -/
theorem meeting_iff_guarded {ok : σ → α → σ → Prop} {I : σ → Prop} {good : σ → α → Prop}
    (hinv : I s) (hgood : ∀ s a t, I s → step s a t → good s a → I t ∧ ok s a t)
    (hbad : ∀ s a t, I s → step s a t → ¬ good s a → ¬ ok s a t) :
    Run (Meeting ok step) s as t ↔ Run (Guarded good step) s as t := by
  have hreach {as : List α} {t : σ} (h : Run (Guarded good step) s as t) : I t :=
    h.invariant hinv fun s a t hs hst => (hgood s a t hs hst.2 hst.1).1
  refine ⟨fun h => ?_, meeting_of_guarded hinv hgood⟩
  induction h with
  | nil => exact nil
  | @snoc as t a u _ hs ih =>
    refine ih.snoc ⟨?_, hs.1⟩
    by_contra hbad'
    exact hbad t a u (hreach ih) hs.1 hbad' hs.2

/-- The same about staying in `P`. -/
theorem into_iff_guarded {P I : σ → Prop} {good : σ → α → Prop} (hinv : I s)
    (hgood : ∀ s a t, I s → step s a t → good s a → I t ∧ P t)
    (hbad : ∀ s a t, I s → step s a t → ¬ good s a → ¬ P t) :
    Run (Into P step) s as t ↔ Run (Guarded good step) s as t :=
  meeting_iff_guarded hinv hgood hbad

/-- A property that no step restores: it holds at the end of a run exactly when every step started
where `good` allows it, if those steps keep it together with an invariant and the others break it.
What holds whatever the steps do may be used to go back. -/
theorem last_iff_guarded {P I J : σ → Prop} {good : σ → α → Prop} (hP : P s) (hinv : I s)
    (hJ : J s) (hJstep : ∀ s a t, J s → step s a t → J t)
    (hback : ∀ s a t, J s → step s a t → P t → P s)
    (hgood : ∀ s a t, I s → step s a t → good s a → I t ∧ (P s → P t))
    (hbad : ∀ s a t, I s → step s a t → ¬ good s a → ¬ P t) (h : Run step s as t) :
    P t ↔ Run (Guarded good step) s as t := by
  have hreach {as : List α} {t : σ} (h : Run (Guarded good step) s as t) : I t ∧ P t := by
    induction h with
    | nil => exact ⟨hinv, hP⟩
    | @snoc as t a u _ hs ih =>
      obtain ⟨hI, hkeep⟩ := hgood t a u ih.1 hs.2 hs.1
      exact ⟨hI, hkeep ih.2⟩
  refine ⟨fun hlast => ?_, fun hguarded => (hreach hguarded).2⟩
  induction h with
  | nil => exact nil
  | @snoc as t a u hrun hs ih =>
    have hguarded := ih (hback t a u (hrun.invariant hJ hJstep) hs hlast)
    refine hguarded.snoc ⟨?_, hs⟩
    by_contra hbad'
    exact hbad t a u (hreach hguarded).1 hs hbad' hlast

end Run

end SnipeIt.Support
