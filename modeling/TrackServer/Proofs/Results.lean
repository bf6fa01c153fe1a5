import Mathlib.Data.List.Forall2

/-!
# Proofs/Results — steps that may fail

What is known of a step that succeeded when it is followed by a pure one (`map_eq_ok_iff`), or is
one of many that were taken in order (`mapM_eq_ok_iff`); and of one that failed, which is the first
of them to do so (`mapM_eq_error_iff`), and the least if they were taken in sorted order
(`mapM_eq_error_iff_of_sorted`).
-/

namespace TrackServer

variable {ε α β : Type}

theorem map_eq_ok_iff {result : Except ε α} {f : α → β} {b : β} :
    result.map f = .ok b ↔ ∃ a, result = .ok a ∧ f a = b := by
  cases result <;> simp [Except.map]

theorem map_eq_error_iff {result : Except ε α} {f : α → β} {fault : ε} :
    result.map f = .error fault ↔ result = .error fault := by
  cases result <;> simp [Except.map]

/-- Steps that give the same for each input give the same in order. -/
theorem mapM_congr_left {f g : α → Except ε β} {inputs : List α} (h : ∀ a ∈ inputs, f a = g a) :
    inputs.mapM f = inputs.mapM g := by
  induction inputs with
  | nil => rfl
  | cons a rest ih =>
    rw [List.forall_mem_cons] at h
    rw [List.mapM_cons, List.mapM_cons, h.1, ih h.2]

/-- **Steps in order all succeed exactly if each of them does.** -/
theorem mapM_eq_ok_iff {f : α → Except ε β} {inputs : List α} {outputs : List β} :
    inputs.mapM f = .ok outputs ↔ List.Forall₂ (fun a b => f a = .ok b) inputs outputs := by
  induction inputs generalizing outputs with
  | nil =>
    rw [List.mapM_nil, List.forall₂_nil_left_iff]
    exact ⟨fun h => (Except.ok.inj h).symm, fun h => congrArg Except.ok h.symm⟩
  | cons a rest ih =>
    rw [List.mapM_cons, List.forall₂_cons_left_iff]
    cases ha : f a with
    | error fault => simp [bind, Except.bind]
    | ok b =>
      cases hrest : rest.mapM f with
      | error fault => simp [bind, Except.bind, ← ih, hrest]
      | ok outputs => simp [bind, Except.bind, pure, Except.pure, ← ih, hrest, eq_comm]

/-- Where all steps succeeded, each did. -/
theorem exists_ok_of_forall₂ {f : α → Except ε β} {inputs : List α} {outputs : List β}
    (h : List.Forall₂ (fun a b => f a = .ok b) inputs outputs) :
    ∀ a ∈ inputs, ∃ b, f a = .ok b := by
  induction h with
  | nil => simp
  | cons hab _ ih => exact List.forall_mem_cons.2 ⟨⟨_, hab⟩, ih⟩

/-- **Steps in order fail as the first of them that fails.** -/
theorem mapM_eq_error_iff {f : α → Except ε β} {inputs : List α} {fault : ε} :
    inputs.mapM f = .error fault ↔ ∃ before a after, inputs = before ++ a :: after
      ∧ (∀ b ∈ before, ∃ output, f b = .ok output) ∧ f a = .error fault := by
  induction inputs with
  | nil => simp [pure, Except.pure]
  | cons first rest ih =>
    rw [List.mapM_cons]
    cases hfirst : f first with
    | error cause =>
      constructor
      · intro h
        obtain rfl := Except.error.inj h
        exact ⟨[], first, rest, rfl, List.forall_mem_nil _, hfirst⟩
      · rintro ⟨before, a, after, heq, hbefore, ha⟩
        cases before with
        | nil =>
          obtain ⟨rfl, -⟩ := List.cons.inj heq
          exact congrArg Except.error (Except.error.inj (hfirst.symm.trans ha))
        | cons b before =>
          obtain ⟨rfl, -⟩ := List.cons.inj heq
          obtain ⟨output, houtput⟩ := hbefore first List.mem_cons_self
          cases hfirst.symm.trans houtput
    | ok output =>
      have hskip : (Except.ok output >>= fun b => rest.mapM f >>= fun more => pure (b :: more))
          = .error fault ↔ rest.mapM f = .error fault := by
        cases rest.mapM f <;> simp [bind, Except.bind, pure, Except.pure]
      rw [hskip, ih]
      constructor
      · rintro ⟨before, a, after, rfl, hbefore, ha⟩
        exact ⟨first :: before, a, after, rfl,
          List.forall_mem_cons.2 ⟨⟨output, hfirst⟩, hbefore⟩, ha⟩
      · rintro ⟨before, a, after, heq, hbefore, ha⟩
        cases before with
        | nil =>
          obtain ⟨rfl, -⟩ := List.cons.inj heq
          cases hfirst.symm.trans ha
        | cons b before =>
          exact ⟨before, a, after, (List.cons.inj heq).2, (List.forall_mem_cons.1 hbefore).2, ha⟩

/-- **Steps in sorted order fail as the least of them that fails.** -/
theorem mapM_eq_error_iff_of_sorted {le : α → α → Prop} [Std.Refl le] [Std.Antisymm le]
    {f : α → Except ε β} {inputs : List α} {fault : ε} (sorted : inputs.Pairwise le) :
    inputs.mapM f = .error fault ↔ ∃ a ∈ inputs, f a = .error fault
      ∧ ∀ b ∈ inputs, ∀ cause, f b = .error cause → le a b := by
  -- The first that fails is not after any other that does.
  have hfirst : ∀ cause, inputs.mapM f = .error cause → ∃ a ∈ inputs, f a = .error cause
      ∧ ∀ b ∈ inputs, ∀ cause, f b = .error cause → le a b := by
    intro cause h
    obtain ⟨before, a, after, rfl, hbefore, ha⟩ := mapM_eq_error_iff.1 h
    refine ⟨a, List.mem_append_right before List.mem_cons_self, ha, fun b hb cause hcause => ?_⟩
    obtain hb | hb := List.mem_append.1 hb
    · obtain ⟨output, houtput⟩ := hbefore b hb
      cases houtput.symm.trans hcause
    · obtain rfl | hb := List.mem_cons.1 hb
      · exact Std.Refl.refl b
      · exact (List.pairwise_cons.1 (List.pairwise_append.1 sorted).2.1).1 b hb
  refine ⟨hfirst fault, fun ⟨a, ha, hfault, hleast⟩ => ?_⟩
  cases h : inputs.mapM f with
  | ok outputs =>
    obtain ⟨output, houtput⟩ := exists_ok_of_forall₂ (mapM_eq_ok_iff.1 h) a ha
    cases hfault.symm.trans houtput
  | error cause =>
    obtain ⟨b, hb, hcause, hleast'⟩ := hfirst cause h
    obtain rfl := Std.Antisymm.antisymm a b (hleast b hb cause hcause) (hleast' a ha fault hfault)
    exact congrArg Except.error (Except.error.inj (hcause.symm.trans hfault))

end TrackServer
