import PolledAta.Proofs.Session

/-!
# Two runs side by side

Two runs that start from related states and take the same way end alike: both with related results in related states,
or both in the same fault.
-/

namespace PolledAta

/-- Both runs have a result, and `R` relates the results, or both end in the same fault. -/
inductive EndAlike {α β : Type} (R : α → β → Prop) : Except Fault α → Except Fault β → Prop where
  | ok {a : α} {b : β} (related : R a b) : EndAlike R (.ok a) (.ok b)
  | fault (fault : Fault) : EndAlike R (.error fault) (.error fault)

theorem EndAlike.mono {α β : Type} {R R' : α → β → Prop} {x : Except Fault α} {y : Except Fault β}
    (h : EndAlike R x y) (hR : ∀ a b, R a b → R' a b) : EndAlike R' x y := by
  cases h with
  | ok related => exact .ok (hR _ _ related)
  | fault fault => exact .fault fault

/-- From states that `S` relates, the programs end alike: `A` relates their answers, and `S` the states they leave. -/
structure Parallel {σ τ α β : Type} (S : σ → τ → Prop) (A : α → β → Prop) (first : StateT σ (Except Fault) α)
    (second : StateT τ (Except Fault) β) : Prop where
  run : ∀ s t, S s t → EndAlike (fun x y => A x.1 y.1 ∧ S x.2 y.2) (first s) (second t)

section

variable {σ τ α β α' β' : Type} {S : σ → τ → Prop} {A : α → β → Prop} {B : α' → β' → Prop}

theorem Parallel.bind {first : StateT σ (Except Fault) α} {second : StateT τ (Except Fault) β}
    {next : α → StateT σ (Except Fault) α'} {next' : β → StateT τ (Except Fault) β'}
    (h : Parallel S A first second) (hn : ∀ a b, A a b → Parallel S B (next a) (next' b)) :
    Parallel S B (first >>= next) (second >>= next') := by
  refine ⟨fun s t hst => ?_⟩
  have hfirst := h.run s t hst
  show EndAlike _ (first s >>= fun (a, s) => next a s) (second t >>= fun (b, t) => next' b t)
  generalize first s = x, second t = y at hfirst
  cases hfirst with
  | ok related => exact (hn _ _ related.1).run _ _ related.2
  | fault fault => exact .fault fault

theorem Parallel.bind_eq {first : StateT σ (Except Fault) α} {second : StateT τ (Except Fault) α}
    {next : α → StateT σ (Except Fault) α'} {next' : α → StateT τ (Except Fault) β'}
    (h : Parallel S Eq first second) (hn : ∀ a, Parallel S B (next a) (next' a)) :
    Parallel S B (first >>= next) (second >>= next') :=
  h.bind fun a _ hab => hab ▸ hn a

theorem parallel_pure {a : α} {b : β} (h : A a b) :
    Parallel S A (pure a : StateT σ (Except Fault) α) (pure b : StateT τ (Except Fault) β) :=
  ⟨fun _ _ hst => .ok ⟨h, hst⟩⟩

theorem parallel_throw (fault : Fault) :
    Parallel S A (throw fault : StateT σ (Except Fault) α) (throw fault : StateT τ (Except Fault) β) :=
  ⟨fun _ _ _ => .fault fault⟩

/-- Programs that go on with the state have to run in parallel from any two states that are related. -/
theorem parallel_get_bind {next : σ → StateT σ (Except Fault) α} {next' : τ → StateT τ (Except Fault) β}
    (hn : ∀ s t, S s t → Parallel S A (next s) (next' t)) : Parallel S A (get >>= next) (get >>= next') :=
  ⟨fun s t hst => (hn s t hst).run s t hst⟩

theorem parallel_modify {f : σ → σ} {g : τ → τ} (h : ∀ s t, S s t → S (f s) (g t)) :
    Parallel S Eq (modify f : StateT σ (Except Fault) Unit) (modify g : StateT τ (Except Fault) Unit) :=
  ⟨fun s t hst => .ok ⟨rfl, h s t hst⟩⟩

theorem parallel_lift (answer : Except Fault α) :
    Parallel S Eq (liftM answer : StateT σ (Except Fault) α) (liftM answer : StateT τ (Except Fault) α) := by
  refine ⟨fun s t hst => ?_⟩
  cases answer with
  | error fault => exact .fault fault
  | ok a => exact .ok ⟨rfl, hst⟩

end

end PolledAta
