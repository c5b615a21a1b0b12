import Mathlib.Logic.Basic

/-!
# Runs of a transition system

Two forms of run: a machine driven by one input a step, indexed by the number of
steps taken, and the states reachable under a transition relation.  Each comes
with the induction that turns what one step preserves into what a run preserves.
Two runs are compared by a relation that a step of both keeps, often equality of
what is left of the states when a part is erased.
-/

namespace Runs

variable {S I : Type}

/-! ## Machines driven by inputs -/

/-- The state after `n` steps; step `k` consumes `input k`. -/
def after (step : I → S → S) (input : Nat → I) (s : S) : Nat → S
  | 0 => s
  | n + 1 => step (input n) (after step input s n)

theorem after_invariant {step : I → S → S} {input : Nat → I} {s : S} (inv : S → Prop)
    (hinit : inv s) (hstep : ∀ n, inv (after step input s n) →
      inv (step (input n) (after step input s n))) (n : Nat) : inv (after step input s n) := by
  induction n with
  | zero => exact hinit
  | succ n ih => exact hstep n ih

theorem after_counted {step : I → S → S} {input : Nat → I} {P : Nat → S → Prop} {n : Nat}
    (hstep : ∀ i s, i < n → P i s → P (i + 1) (step (input i) s)) {s : S} (hs : P 0 s) :
    P n (after step input s n) := by
  induction n with
  | zero => exact hs
  | succ n ih =>
      have hsofar := ih fun i s hi => hstep i s (Nat.lt_succ_of_lt hi)
      exact hstep n _ (Nat.lt_succ_self n) hsofar

theorem after_related {T : Type} {R : S → T → Prop} {step : I → S → S} {step' : I → T → T}
    {input : Nat → I} (hstep : ∀ i s t, R s t → R (step i s) (step' i t)) {s : S} {t : T}
    (h : R s t) (n : Nat) : R (after step input s n) (after step' input t n) := by
  induction n with
  | zero => exact h
  | succ n ih => exact hstep _ _ _ ih

theorem after_invariant_from {step : I → S → S} {input : Nat → I} {s : S} (inv : S → Prop)
    {m : Nat} (hm : inv (after step input s m))
    {n : Nat} (hmn : m ≤ n)
    (hstep : ∀ k, m ≤ k → k < n → inv (after step input s k) →
      inv (step (input k) (after step input s k))) : inv (after step input s n) := by
  induction n with
  | zero =>
      have hzero : m = 0 := Nat.le_zero.mp hmn
      exact hzero ▸ hm
  | succ n ih =>
      rcases Nat.lt_or_eq_of_le hmn with hlt | heq
      · have hmn' : m ≤ n := Nat.le_of_lt_succ hlt
        exact hstep n hmn' (Nat.lt_succ_self n)
          (ih hmn' fun k hk hkn => hstep k hk (Nat.lt_succ_of_lt hkn))
      · exact heq ▸ hm

/-! ## Reachable states -/

inductive Reachable (init : S → Prop) (next : S → S → Prop) : S → Prop where
  | start {s : S} : init s → Reachable init next s
  | step {s t : S} : Reachable init next s → next s t → Reachable init next t

theorem Reachable.invariant {init : S → Prop} {next : S → S → Prop} {inv : S → Prop}
    (hinit : ∀ s, init s → inv s) (hstep : ∀ s t, inv s → next s t → inv t) {s : S}
    (h : Reachable init next s) : inv s := by
  induction h with
  | start hs => exact hinit _ hs
  | step _ hnext ih => exact hstep _ _ ih hnext

theorem Reachable.mono {init : S → Prop} {next next' : S → S → Prop}
    (hsub : ∀ s t, next s t → next' s t) {s : S} (h : Reachable init next s) :
    Reachable init next' s := by
  induction h with
  | start hs => exact .start hs
  | step _ hnext ih => exact .step ih (hsub _ _ hnext)

/-! ## Inevitable states -/

/-- However it goes on, a run comes to a state with `P`, and there is a way to go on until then. -/
inductive Inevitable (next : S → S → Prop) (P : S → Prop) : S → Prop where
  | now {s : S} : P s → Inevitable next P s
  | later {s : S} : (∃ t, next s t) → (∀ t, next s t → Inevitable next P t) → Inevitable next P s

theorem Inevitable.trans {next : S → S → Prop} {P Q : S → Prop} {s : S}
    (h : Inevitable next P s) (hPQ : ∀ s, P s → Inevitable next Q s) : Inevitable next Q s := by
  induction h with
  | now hP => exact hPQ _ hP
  | later hgo _ ih => exact .later hgo ih

theorem Inevitable.of_rank {next : S → S → Prop} {inv P : S → Prop} (rank : S → Nat)
    (hgo : ∀ s, inv s → ∃ t, next s t)
    (hstep : ∀ s t, inv s → next s t → P t ∨ inv t ∧ rank t < rank s) {s : S} (hs : inv s) :
    Inevitable next P s := by
  induction hrank : rank s using Nat.strongRecOn generalizing s with
  | ind n ih =>
      refine .later (hgo s hs) fun t hnext => ?_
      rcases hstep s t hs hnext with hP | ⟨ht, hlt⟩
      · exact .now hP
      · exact ih (rank t) (hrank ▸ hlt) ht rfl

/-! ## Steps that can fail -/

/-- A list of steps; it ends at the first one that fails. -/
def exec (step : S → I → Option S) : S → List I → Option S
  | s, [] => some s
  | s, i :: is => (step s i).bind fun t => exec step t is

/-- `P` holds at every step of a list, up to the first one that fails. -/
def Along (step : S → I → Option S) (P : S → I → Prop) : S → List I → Prop
  | _, [] => True
  | s, i :: is => P s i ∧ ∀ t, step s i = some t → Along step P t is

theorem Along.invariant {step : S → I → Option S} {P Q : S → I → Prop} (inv : S → Prop)
    (hstep : ∀ s i, inv s → P s i → Q s i ∧ ∀ t, step s i = some t → inv t)
    {s : S} (hs : inv s) {is : List I} (h : Along step P s is) : Along step Q s is := by
  induction is generalizing s with
  | nil => exact trivial
  | cons i is ih =>
      constructor
      · exact (hstep s i hs h.1).1
      · intro t ht
        exact ih ((hstep s i hs h.1).2 t ht) (h.2 t ht)

theorem along_congr {step : S → I → Option S} {P Q : S → I → Prop} {is : List I}
    (h : ∀ i ∈ is, ∀ s, P s i ↔ Q s i) (s : S) : Along step P s is ↔ Along step Q s is := by
  induction is generalizing s with
  | nil => exact Iff.rfl
  | cons i is ih =>
      have hrest := ih fun j hj => h j (List.mem_cons_of_mem i hj)
      rw [Along, Along, h i List.mem_cons_self s]
      exact and_congr_right fun _ => forall_congr' fun t => imp_congr_right fun _ => hrest t

theorem Along.append {step : S → I → Option S} {P : S → I → Prop} {s t : S} {is js : List I}
    (h : Along step P s (is ++ js)) (ht : exec step s is = some t) : Along step P t js := by
  induction is generalizing s with
  | nil =>
      rw [exec, Option.some_inj] at ht
      exact ht ▸ h
  | cons i is ih =>
      rw [exec] at ht
      obtain ⟨u, hu, ht⟩ := Option.bind_eq_some_iff.mp ht
      exact ih (h.2 u hu) ht

theorem Along.invariant_take {step : S → I → Option S} {P : S → I → Prop} (inv : S → Prop)
    (hstep : ∀ s i, inv s → P s i → ∀ t, step s i = some t → inv t)
    {s : S} (hs : inv s) {is : List I} (h : Along step P s is) (n : Nat) {t : S}
    (ht : exec step s (is.take n) = some t) : inv t := by
  induction is generalizing s n with
  | nil =>
      rw [List.take_nil, exec, Option.some_inj] at ht
      exact ht ▸ hs
  | cons i is ih =>
      cases n with
      | zero =>
          rw [List.take_zero, exec, Option.some_inj] at ht
          exact ht ▸ hs
      | succ n =>
          rw [List.take_succ_cons, exec] at ht
          obtain ⟨u, hu, ht⟩ := Option.bind_eq_some_iff.mp ht
          exact ih (hstep s i hs h.1 u hu) (h.2 u hu) n ht

theorem exec_append (step : S → I → Option S) (s : S) (is js : List I) :
    exec step s (is ++ js) = (exec step s is).bind fun t => exec step t js := by
  induction is generalizing s with
  | nil => rfl
  | cons i is ih =>
      rw [List.cons_append, exec, exec, Option.bind_assoc]
      exact congrArg (Option.bind (step s i)) (funext ih)

theorem exec_isSome {step : S → I → Option S} (hstep : ∀ s i, (step s i).isSome) (s : S)
    (is : List I) : (exec step s is).isSome := by
  induction is generalizing s with
  | nil => rfl
  | cons i is ih =>
      obtain ⟨t, ht⟩ := Option.isSome_iff_exists.mp (hstep s i)
      rw [exec, ht, Option.bind_some]
      exact ih t

theorem exec_relates {step : S → I → Option S} {R : S → S → Prop} (hrefl : ∀ s, R s s)
    (htrans : ∀ {s t u}, R s t → R t u → R s u) (hstep : ∀ s i t, step s i = some t → R s t)
    {s t : S} {is : List I} (h : exec step s is = some t) : R s t := by
  induction is generalizing s with
  | nil =>
      rw [exec, Option.some_inj] at h
      exact h ▸ hrefl s
  | cons i is ih =>
      rw [exec] at h
      obtain ⟨u, hu, h⟩ := Option.bind_eq_some_iff.mp h
      exact htrans (hstep s i u hu) (ih h)

theorem exec_take_le {step : S → I → Option S} {s t : S} {is : List I} {m n : Nat} (hle : m ≤ n)
    (h : exec step s (is.take n) = some t) :
    ∃ u js, exec step s (is.take m) = some u ∧ exec step u js = some t := by
  have hsplit : is.take n = is.take m ++ (is.take n).drop m := by
    have hparts := List.take_append_drop m (is.take n)
    rw [List.take_take, Nat.min_eq_left hle] at hparts
    exact hparts.symm
  rw [hsplit, exec_append] at h
  obtain ⟨u, hu, h⟩ := Option.bind_eq_some_iff.mp h
  exact ⟨u, _, hu, h⟩

theorem Along.comap {T : Type} {step : S → I → Option S} {step' : T → I → Option T} {f : T → S}
    (hf : ∀ u i v, step' u i = some v → step (f u) i = some (f v)) {P : S → I → Prop} {u : T}
    {is : List I} (h : Along step P (f u) is) : Along step' (fun u i => P (f u) i) u is := by
  induction is generalizing u with
  | nil => exact trivial
  | cons i is ih => exact ⟨h.1, fun v hv => ih (h.2 (f v) (hf u i v hv))⟩

theorem exec_take_succ {step : S → I → Option S} {s t : S} {is : List I} {n : Nat} {i : I}
    (ht : exec step s (is.take n) = some t) (hi : is[n]? = some i) :
    exec step s (is.take (n + 1)) = step t i := by
  rw [List.take_add_one, exec_append, ht, hi, Option.bind_some, Option.toList_some, exec]
  exact Option.bind_fun_some _

theorem along_iff_take {step : S → I → Option S} {P : S → I → Prop} {s : S} {is : List I} :
    Along step P s is ↔
      ∀ n i t, exec step s (is.take n) = some t → is[n]? = some i → P t i := by
  induction is generalizing s with
  | nil => exact ⟨fun _ n i t _ hi => by simp at hi, fun _ => trivial⟩
  | cons i is ih =>
      constructor
      · intro h n j t ht hj
        cases n with
        | zero =>
            rw [List.take_zero, exec, Option.some_inj] at ht
            rw [List.getElem?_cons_zero, Option.some_inj] at hj
            exact ht ▸ hj ▸ h.1
        | succ n =>
            rw [List.take_succ_cons, exec] at ht
            obtain ⟨u, hu, ht⟩ := Option.bind_eq_some_iff.mp ht
            exact ih.mp (h.2 u hu) n j t ht hj
      · intro h
        refine ⟨h 0 i s rfl rfl, fun t ht => ih.mpr fun n j u hu hj => ?_⟩
        apply h (n + 1) j u
        · rw [List.take_succ_cons, exec, ht]
          exact hu
        · exact hj

theorem exec_comap {T : Type} {step : S → I → Option S} {step' : T → I → Option T} {f : T → S}
    (hf : ∀ u i, (step' u i).map f = step (f u) i) (u : T) (is : List I) :
    (exec step' u is).map f = exec step (f u) is := by
  induction is generalizing u with
  | nil => rfl
  | cons i is ih =>
      rw [exec, exec, ← hf u i, Option.map_bind, Option.bind_map]
      exact congrArg (Option.bind (step' u i)) (funext ih)

theorem forall_take_iff_along {step : S → I → Option S} {R : S → S → Prop} (hrefl : ∀ s, R s s)
    (hsymm : ∀ {s t}, R s t → R t s) (htrans : ∀ {s t u}, R s t → R t u → R s u)
    (s : S) (is : List I) :
    (∀ n t, exec step s (is.take n) = some t → R s t) ↔
      Along step (fun s i => ∀ t, step s i = some t → R s t) s is := by
  constructor
  · intro h
    induction is generalizing s with
    | nil => exact trivial
    | cons i is ih =>
        have hfirst : ∀ t, step s i = some t → R s t := by
          intro t ht
          apply h 1 t
          rw [List.take_succ_cons, List.take_zero, exec, ht]
          rfl
        refine ⟨hfirst, fun t ht => ih t fun n u hu => ?_⟩
        apply htrans (hsymm (hfirst t ht))
        apply h (n + 1) u
        rw [List.take_succ_cons, exec, ht]
        exact hu
  · intro h n t ht
    exact h.invariant_take (R s) (fun u i hu hP v hv => htrans hu (hP v hv)) (hrefl s) n ht

/-! ## Two runs -/

theorem exec_related {T : Type} {R : S → T → Prop} {step : S → I → Option S}
    {step' : T → I → Option T} (hstep : ∀ s t i, R s t → Option.Rel R (step s i) (step' t i))
    {s : S} {t : T} (h : R s t) (is : List I) : Option.Rel R (exec step s is) (exec step' t is) := by
  induction is generalizing s t with
  | nil => exact .some h
  | cons i is ih =>
      have hnext := hstep s t i h
      rw [exec, exec]
      generalize step s i = u at hnext
      generalize step' t i = v at hnext
      cases hnext with
      | none => exact .none
      | some huv => exact ih huv

section

variable {T : Type} {erase : S → S} {s s' : S}

theorem eq_of_erased (h : erase s = erase s') (f : S → T) (hf : ∀ t, f (erase t) = f t) :
    f s = f s' := by
  rw [← hf s, h, hf s']

theorem erased_congr {erase' : T → T} (h : erase s = erase s') (f : S → T)
    (hf : ∀ t, erase' (f (erase t)) = erase' (f t)) : erase' (f s) = erase' (f s') := by
  rw [← hf s, h, hf s']

end

end Runs
