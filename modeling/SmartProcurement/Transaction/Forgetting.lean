import SmartProcurement.Transaction.Session

namespace SmartProcurement.Transaction

/-! # Runs that forget

A loop whose accumulator carries more than another loop's takes the same course, if
every iteration that it comes to does so up to what is forgotten.
-/

variable {ε σ α β γ : Type} {step : β → α → EStateM ε σ β} {plain : γ → α → EStateM ε σ γ} {forget : β → γ}

theorem map_of_ok {computation : EStateM ε σ β} {value : β} {before after : σ}
    (ran : computation before = .ok value after) :
    (forget <$> computation) before = .ok (forget value) after := by
  change EStateM.map forget computation before = _
  simp only [EStateM.map, ran]

theorem map_of_error {computation : EStateM ε σ β} {reason : ε} {before after : σ}
    (ran : computation before = .error reason after) :
    (forget <$> computation) before = .error reason after := by
  change EStateM.map forget computation before = _
  simp only [EStateM.map, ran]

/-- What comes behind does not see what is forgotten. -/
theorem bind_of_map {computation : EStateM ε σ β} {other : EStateM ε σ γ} {next : β → EStateM ε σ α}
    {after : γ → EStateM ε σ α} {before : σ} (same : (forget <$> computation) before = other before)
    (continues : ∀ value, next value = after (forget value)) :
    (computation >>= next) before = (other >>= after) before := by
  cases ran : computation before with
  | ok value middle =>
      rw [bind_of_ok ran, bind_of_ok (same.symm.trans (map_of_ok ran)), continues]
  | error reason middle =>
      rw [bind_of_error ran, bind_of_error (same.symm.trans (map_of_error ran))]

theorem map_foldlM {list : List α} {init : β} {before : σ}
    (steps : ∀ value acc reached, Reaches step list init before value acc reached →
      (forget <$> step acc value) reached = plain (forget acc) value reached) :
    (forget <$> list.foldlM step init) before = list.foldlM plain (forget init) before := by
  induction list generalizing init before with
  | nil => rfl
  | cons first rest ih =>
      have head := steps first init before (reaches_cons.mpr (.inl ⟨rfl, rfl, rfl⟩))
      rw [List.foldlM_cons, List.foldlM_cons]
      cases ran : step init first before with
      | ok next middle =>
          have later := ih fun value acc reached reaches =>
            steps value acc reached (reaches_cons.mpr (.inr ⟨next, middle, ran, reaches⟩))
          rw [map_bind, bind_of_ok ran, later, bind_of_ok (head.symm.trans (map_of_ok ran))]
      | error reason middle =>
          rw [map_bind, bind_of_error ran, bind_of_error (head.symm.trans (map_of_error ran))]

end SmartProcurement.Transaction
