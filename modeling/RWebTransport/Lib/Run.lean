import Mathlib.Logic.Relation

/-!
# Loops and runs of a deterministic system

`iterate` is a loop whose body says whether to go on.  It takes a fuel
argument; `iterate_fuel` says the fuel is immaterial once it exceeds a measure
that every continuing pass lowers.

`execute` runs a system over a list of operations and `Along` states a
condition on each operation in the state it is taken in.  The induction over a
run is done here once (`execute_invariant`, `execute_rel`).
-/

namespace RWebTransport

universe u v

variable {σ : Type u} {α : Type v}

/-! ## Loops -/

/-- Repeats `body` until it answers `false` or the fuel is gone. -/
def iterate (body : σ → σ × Bool) : Nat → σ → σ
  | 0, s => s
  | n + 1, s => if (body s).2 then iterate body n (body s).1 else (body s).1

/-- A property kept by every pass is kept by the loop. -/
theorem iterate_invariant {body : σ → σ × Bool} {I : σ → Prop}
    (hbody : ∀ s, I s → I (body s).1) : ∀ (n : Nat) {s : σ}, I s → I (iterate body n s)
  | 0, _, hs => hs
  | n + 1, s, hs => by
      rw [iterate]
      split
      · exact iterate_invariant hbody n (hbody s hs)
      · exact hbody s hs

/-- A reflexive and transitive relation that relates every pass, under an
invariant of the passes, relates the loop. -/
theorem iterate_rel {body : σ → σ × Bool} {I : σ → Prop} {R : σ → σ → Prop}
    (hrefl : ∀ s, R s s) (htrans : ∀ {a b c}, R a b → R b c → R a c)
    (hbody : ∀ s, I s → R s (body s).1 ∧ I (body s).1) :
    ∀ (n : Nat) {s : σ}, I s → R s (iterate body n s)
  | 0, s, _ => hrefl s
  | n + 1, s, hs => by
      rw [iterate]
      split
      · exact htrans (hbody s hs).1 (iterate_rel hrefl htrans hbody n (hbody s hs).2)
      · exact (hbody s hs).1

/-- What the last pass of a loop leaves, if each other pass lowers a measure. -/
theorem iterate_exit {body : σ → σ × Bool} {I Q : σ → Prop} (μ : σ → Nat)
    (hgo : ∀ s, I s → (body s).2 = true → I (body s).1 ∧ μ (body s).1 < μ s)
    (hlast : ∀ s, I s → (body s).2 = false → Q (body s).1) :
    ∀ (n : Nat) {s : σ}, I s → μ s < n → Q (iterate body n s)
  | 0, _, _, hlt => absurd hlt (Nat.not_lt_zero _)
  | n + 1, s, hI, hlt => by
      rw [iterate]
      cases hbody : (body s).2 with
      | false =>
          rw [if_neg (by simp)]
          exact hlast s hI hbody
      | true =>
          obtain ⟨hnext, hless⟩ := hgo s hI hbody
          rw [if_pos rfl]
          exact iterate_exit μ hgo hlast n hnext (by omega)

/-- Fuel beyond a measure that every continuing pass lowers changes nothing. -/
theorem iterate_fuel {body : σ → σ × Bool} (μ : σ → Nat)
    (hμ : ∀ s, (body s).2 = true → μ (body s).1 < μ s) :
    ∀ {n m : Nat} {s : σ}, μ s < n → μ s < m → iterate body n s = iterate body m s
  | 0, _, _, h, _ => absurd h (by omega)
  | _, 0, _, _, h => absurd h (by omega)
  | n + 1, m + 1, s, hn, hm => by
      rw [iterate, iterate]
      split
      next hgo =>
        have hlt := hμ s hgo
        exact iterate_fuel μ hμ (by omega) (by omega)
      · rfl

/-! ## Runs -/

/-- The state after a list of operations. -/
def execute (step : σ → α → σ) (s : σ) (ops : List α) : σ := ops.foldl step s

@[simp] theorem execute_nil (step : σ → α → σ) (s : σ) : execute step s [] = s := rfl

@[simp] theorem execute_cons (step : σ → α → σ) (s : σ) (a : α) (ops : List α) :
    execute step s (a :: ops) = execute step (step s a) ops := rfl

theorem execute_append (step : σ → α → σ) (s : σ) (ops more : List α) :
    execute step s (ops ++ more) = execute step (execute step s ops) more :=
  List.foldl_append

/-- Every operation of the run meets `P` in the state it is taken in. -/
def Along (step : σ → α → σ) (P : σ → α → Prop) : σ → List α → Prop
  | _, [] => True
  | s, a :: ops => P s a ∧ Along step P (step s a) ops

instance decidableAlong {step : σ → α → σ} {P : σ → α → Prop} [∀ s a, Decidable (P s a)] :
    ∀ (s : σ) (ops : List α), Decidable (Along step P s ops)
  | _, [] => .isTrue trivial
  | s, a :: ops => @instDecidableAnd _ _ _ (decidableAlong (step s a) ops)

theorem along_append {step : σ → α → σ} {P : σ → α → Prop} {ops more : List α} :
    ∀ {s : σ}, Along step P s (ops ++ more) ↔
      Along step P s ops ∧ Along step P (execute step s ops) more := by
  induction ops with
  | nil => simp [Along]
  | cons a ops ih => simp [Along, ih, and_assoc]

theorem along_true (step : σ → α → σ) : ∀ (ops : List α) (s : σ),
    Along step (fun _ _ => True) s ops
  | [], _ => trivial
  | _ :: ops, _ => ⟨trivial, along_true step ops _⟩

theorem along_of_forall {step : σ → α → σ} {P : σ → α → Prop} : ∀ {ops : List α} {s : σ},
    (∀ a ∈ ops, ∀ s, P s a) → Along step P s ops
  | [], _, _ => trivial
  | a :: _, s, h => ⟨h a List.mem_cons_self s,
      along_of_forall fun b hb => h b (List.mem_cons_of_mem a hb)⟩

/-- What holds along a run, read off at each of its operations. -/
theorem along_iff_forall {step : σ → α → σ} {P : σ → α → Prop} {ops : List α} {s : σ} :
    Along step P s ops ↔
      ∀ before a after, ops = before ++ a :: after → P (execute step s before) a := by
  constructor
  · rintro h before a after rfl
    exact (along_append.mp h).2.1
  · intro h
    induction ops generalizing s with
    | nil => trivial
    | cons a ops ih =>
        exact ⟨h [] a ops rfl, ih fun before b after heq => h (a :: before) b after (by rw [heq]; rfl)⟩

theorem along_and_iff {step : σ → α → σ} {P Q : σ → α → Prop} : ∀ {ops : List α} {s : σ},
    Along step (fun s a => P s a ∧ Q s a) s ops ↔ Along step P s ops ∧ Along step Q s ops
  | [], _ => ⟨fun _ => ⟨trivial, trivial⟩, fun _ => trivial⟩
  | _ :: _, _ => by
      simp only [Along, along_and_iff]
      exact and_and_and_comm

theorem along_and {step : σ → α → σ} {P Q : σ → α → Prop} {ops : List α} {s : σ}
    (hP : Along step P s ops) (hQ : Along step Q s ops) :
    Along step (fun s a => P s a ∧ Q s a) s ops :=
  along_and_iff.mpr ⟨hP, hQ⟩

/-- Two conditions that agree where an invariant holds agree along runs, if the
second one keeps the invariant. -/
theorem along_iff {step : σ → α → σ} {A P Q : σ → α → Prop} {I : σ → Prop}
    (hiff : ∀ s op, I s → A s op → (P s op ↔ Q s op))
    (hkeep : ∀ s op, I s → A s op → Q s op → I (step s op)) :
    ∀ {ops : List α} {s : σ}, I s → Along step A s ops → (Along step P s ops ↔ Along step Q s ops)
  | [], _, _, _ => Iff.rfl
  | op :: _, s, hI, hA => by
      have h := hiff s op hI hA.1
      constructor
      · rintro ⟨hP, hrest⟩
        have hQ := h.mp hP
        exact ⟨hQ, (along_iff hiff hkeep (hkeep s op hI hA.1 hQ) hA.2).mp hrest⟩
      · rintro ⟨hQ, hrest⟩
        exact ⟨h.mpr hQ, (along_iff hiff hkeep (hkeep s op hI hA.1 hQ) hA.2).mpr hrest⟩

/-- What an invariant and a condition imply of each operation, if they keep the
invariant, holds along runs. -/
theorem along_imp {step : σ → α → σ} {P Q : σ → α → Prop} {I : σ → Prop}
    (h : ∀ s op, I s → P s op → Q s op ∧ I (step s op)) :
    ∀ {ops : List α} {s : σ}, I s → Along step P s ops → Along step Q s ops
  | [], _, _, _ => trivial
  | op :: _, s, hI, hP =>
      have ⟨hQ, hnext⟩ := h s op hI hP.1
      ⟨hQ, along_imp h hnext hP.2⟩

/-- What every admitted operation preserves holds after every admitted run. -/
theorem execute_invariant {step : σ → α → σ} {P : σ → α → Prop} {I : σ → Prop}
    (hstep : ∀ s a, I s → P s a → I (step s a)) :
    ∀ {ops : List α} {s : σ}, I s → Along step P s ops → I (execute step s ops)
  | [], _, hs, _ => hs
  | a :: ops, s, hs, hP => by
      rw [execute_cons]
      exact execute_invariant hstep (hstep s a hs hP.1) hP.2

/-- What relates the two ends of every admitted operation, under an invariant,
relates the two ends of every admitted run. -/
theorem execute_rel {step : σ → α → σ} {P : σ → α → Prop} {I : σ → Prop} {R : σ → σ → Prop}
    (hrefl : ∀ s, R s s) (htrans : ∀ {a b c}, R a b → R b c → R a c)
    (hstep : ∀ s a, I s → P s a → R s (step s a) ∧ I (step s a)) :
    ∀ {ops : List α} {s : σ}, I s → Along step P s ops → R s (execute step s ops)
  | [], s, _, _ => hrefl s
  | a :: ops, s, hs, hP => by
      rw [execute_cons]
      exact htrans (hstep s a hs hP.1).1
        (execute_rel hrefl htrans hstep (hstep s a hs hP.1).2 hP.2)

/-- What the operations of a run add to a list, in their order. -/
theorem execute_collects {β : Type*} {step : σ → α → σ} {P : σ → α → Prop} {I : σ → Prop}
    (view : σ → List β) (f : α → Option β)
    (hstep : ∀ s a, I s → P s a → view (step s a) = view s ++ (f a).toList ∧ I (step s a)) :
    ∀ {ops : List α} {s : σ}, I s → Along step P s ops →
      view (execute step s ops) = view s ++ ops.filterMap f
  | [], s, _, _ => (List.append_nil _).symm
  | a :: ops, s, hs, hP => by
      obtain ⟨hview, hnext⟩ := hstep s a hs hP.1
      rw [execute_cons, execute_collects view f hstep hnext hP.2, hview, List.append_assoc]
      cases hf : f a <;> simp [hf]

/-! ## Outputs -/

section

variable {β : Type*}

/-- What the operations of a run put out, in order. -/
def outputs (step : σ → α → σ) (out : σ → α → List β) : σ → List α → List β
  | _, [] => []
  | s, a :: ops => out s a ++ outputs step out (step s a) ops

theorem outputs_append {step : σ → α → σ} {out : σ → α → List β} {ops more : List α} :
    ∀ {s : σ}, outputs step out s (ops ++ more) =
      outputs step out s ops ++ outputs step out (execute step s ops) more := by
  induction ops with
  | nil => simp [outputs]
  | cons a ops ih => simp [outputs, ih]

/-- What every admitted operation preserves of a state and of all that was put out. -/
theorem outputs_invariant {step : σ → α → σ} {out : σ → α → List β} {P : σ → α → Prop}
    {I : List β → σ → Prop} (hstep : ∀ l s a, I l s → P s a → I (l ++ out s a) (step s a)) :
    ∀ {ops : List α} {l : List β} {s : σ}, I l s → Along step P s ops →
      I (l ++ outputs step out s ops) (execute step s ops)
  | [], l, s, hs, _ => by simpa [outputs] using hs
  | a :: ops, l, s, hs, hP => by
      rw [execute_cons, outputs, ← List.append_assoc]
      exact outputs_invariant hstep (hstep l s a hs hP.1) hP.2

end

end RWebTransport
