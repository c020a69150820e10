import SmartProcurement.Transaction.Session

namespace SmartProcurement.Transaction

/-! # Sessions that return

`Achieves pre body post`: started where `pre` holds, the session returns, and `post`
holds of its value and of the state that it leaves.
-/

variable {ε σ α β : Type}

def Achieves (pre : σ → Prop) (body : EStateM ε σ α) (post : α → σ → Prop) : Prop :=
  ∀ before, pre before → ∃ value after, body before = .ok value after ∧ post value after

/-- A query hands on what it reads. -/
theorem read_bind (query : σ → α) (next : α → EStateM ε σ β) (before : σ) :
    (read query >>= next) before = next (query before) before := rfl

section Rules

variable {pre stronger : σ → Prop} {post weaker : α → σ → Prop} {results : β → σ → Prop} {body : EStateM ε σ α}

theorem Achieves.weaken (achieves : Achieves pre body post) (starts : ∀ before, stronger before → pre before)
    (ends : ∀ value after, post value after → weaker value after) : Achieves stronger body weaker := by
  intro before holds
  obtain ⟨value, after, ran, holds⟩ := achieves before (starts before holds)
  exact ⟨value, after, ran, ends value after holds⟩

theorem achieves_pure (value : α) : Achieves (post value) (pure value : EStateM ε σ α) post :=
  fun before holds => ⟨value, before, rfl, holds⟩

theorem Achieves.bind {next : α → EStateM ε σ β} (achieves : Achieves pre body post)
    (continues : ∀ value, Achieves (post value) (next value) results) : Achieves pre (body >>= next) results := by
  intro before holds
  obtain ⟨value, middle, ran, holds⟩ := achieves before holds
  obtain ⟨result, after, rest, holds⟩ := continues value middle holds
  exact ⟨result, after, (bind_of_ok ran).trans rest, holds⟩

/-- A loop whose invariant speaks of the values that are done. -/
theorem achieves_foldlM {step : β → α → EStateM ε σ β} {values : List α} (invariant : List α → β → σ → Prop)
    (steps : ∀ done value rest acc, values = done ++ value :: rest →
      Achieves (invariant done acc) (step acc value) (invariant (done ++ [value]))) (init : β) :
    Achieves (invariant [] init) (values.foldlM step init) (invariant values) := by
  have from_done : ∀ rest done acc, values = done ++ rest →
      Achieves (invariant done acc) (rest.foldlM step acc) (invariant values) := by
    intro rest
    induction rest with
    | nil =>
        intro done acc split
        rw [List.append_nil] at split
        rw [split]
        exact achieves_pure acc
    | cons value rest ih =>
        intro done acc split
        rw [List.foldlM_cons]
        apply (steps done value rest acc split).bind
        intro next
        apply ih (done ++ [value]) next
        rw [split, List.append_assoc, List.singleton_append]
  exact from_done values [] init rfl

theorem achieves_forM {step : α → EStateM ε σ PUnit} {values : List α} (invariant : List α → σ → Prop)
    (steps : ∀ done value rest, values = done ++ value :: rest →
      Achieves (invariant done) (step value) fun _ => invariant (done ++ [value])) :
    Achieves (invariant []) (values.forM step) fun _ => invariant values := by
  have from_done : ∀ rest done, values = done ++ rest →
      Achieves (invariant done) (rest.forM step) fun _ => invariant values := by
    intro rest
    induction rest with
    | nil =>
        intro done split
        rw [List.append_nil] at split
        rw [split]
        exact fun before holds => ⟨⟨⟩, before, rfl, holds⟩
    | cons value rest ih =>
        intro done split
        apply (steps done value rest split).bind
        intro _
        apply ih (done ++ [value])
        rw [split, List.append_assoc, List.singleton_append]
  exact from_done values [] rfl

/-- A loop of which no iteration does anything. -/
theorem foldlM_idle {step : β → α → EStateM ε σ β} {values : List α} {acc : β} {before : σ}
    (idle : ∀ value ∈ values, step acc value before = .ok acc before) : values.foldlM step acc before = .ok acc before := by
  induction values with
  | nil => rfl
  | cons value rest ih =>
      rw [List.foldlM_cons, bind_of_ok (idle value List.mem_cons_self)]
      exact ih fun value member => idle value (List.mem_cons_of_mem _ member)

theorem forM_idle {step : α → EStateM ε σ PUnit} {values : List α} {before : σ}
    (idle : ∀ value ∈ values, step value before = .ok ⟨⟩ before) : values.forM step before = .ok ⟨⟩ before := by
  induction values with
  | nil => rfl
  | cons value rest ih =>
      change (step value >>= fun _ => rest.forM step) before = _
      rw [bind_of_ok (idle value List.mem_cons_self)]
      exact ih fun value member => idle value (List.mem_cons_of_mem _ member)

end Rules

end SmartProcurement.Transaction
