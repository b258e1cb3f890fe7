/-
Programs over a state that may stop with an error, keep what they changed when
they do, and record the calls they make to a lower layer, each with the state it
is made in.  Triples with one postcondition for each way to end.
-/
import Mathlib.Logic.Basic
import Mathlib.Data.List.Basic

universe u v w

/-- How a program ends: its result, the state it leaves and the calls it made. -/
structure Prog.Outcome (σ : Type u) (π : Type v) (ε : Type w) (α : Type) where
  result : Except ε α
  state : σ
  calls : List (σ × π)

def Prog (σ : Type u) (π : Type v) (ε : Type w) (α : Type) := σ → Prog.Outcome σ π ε α

namespace Prog

variable {σ : Type u} {π : Type v} {ε : Type w} {α β : Type}

def ret (a : α) : Prog σ π ε α := fun s => ⟨.ok a, s, []⟩

/-- Run `m`, and then `f` on its result.  An error of `m` ends the program. -/
def andThen (m : Prog σ π ε α) (f : α → Prog σ π ε β) : Prog σ π ε β := fun s =>
  match (m s).result with
  | .ok a =>
    let rest := f a (m s).state
    ⟨rest.result, rest.state, (m s).calls ++ rest.calls⟩
  | .error e => ⟨.error e, (m s).state, (m s).calls⟩

instance : Monad (Prog σ π ε) where
  pure := ret
  bind := andThen

lemma bind_assoc {γ : Type} (m : Prog σ π ε α) (f : α → Prog σ π ε β)
    (g : β → Prog σ π ε γ) : m >>= f >>= g = m >>= fun a => f a >>= g := by
  change andThen (andThen m f) g = andThen m fun a => andThen (f a) g
  funext s
  unfold andThen
  cases (m s).result with
  | error e => rfl
  | ok a =>
    dsimp only
    cases (f a (m s).state).result with
    | error e => rfl
    | ok b => simp only [List.append_assoc]

def fail (e : ε) : Prog σ π ε α := fun s => ⟨.error e, s, []⟩

/-- Compute from the state without changing it. -/
def look (f : σ → Except ε α) : Prog σ π ε α := fun s => ⟨f s, s, []⟩

def alter (f : σ → σ) : Prog σ π ε Unit := fun s => ⟨.ok (), f s, []⟩

/-- An operation of this layer on the state. -/
def act (f : σ → Except ε α × σ) : Prog σ π ε α := fun s => ⟨(f s).1, (f s).2, []⟩

/-- An operation of the lower layer, recorded as the call `p`. -/
def call (p : π) (f : σ → Except ε α × σ) : Prog σ π ε α := fun s => ⟨(f s).1, (f s).2, [(s, p)]⟩

/-- Run `m` and give an error that `catches` selects to `handler`. -/
def recover (m : Prog σ π ε α) (catches : ε → Bool)
    (handler : ε → Prog σ π ε α) : Prog σ π ε α := fun s =>
  match (m s).result with
  | .ok a => ⟨.ok a, (m s).state, (m s).calls⟩
  | .error e =>
    if catches e then
      let rest := handler e (m s).state
      ⟨rest.result, rest.state, (m s).calls ++ rest.calls⟩
    else ⟨.error e, (m s).state, (m s).calls⟩

/-- What holds when the program ends, by the way it ends. -/
def Ends (o : Outcome σ π ε α) (Q : α → σ → Prop) (E : ε → σ → Prop) : Prop :=
  match o.result with
  | .ok a => Q a o.state
  | .error e => E e o.state

/-- From a state with `P`, if every call is made as `ok` asks, the program ends
with `Q` on success and with `E` on an error. -/
structure Triple (ok : σ → π → Prop) (P : σ → Prop) (m : Prog σ π ε α)
    (Q : α → σ → Prop) (E : ε → σ → Prop) : Prop where
  ends : ∀ s, P s → (∀ c ∈ (m s).calls, ok c.1 c.2) → Ends (m s) Q E

section

variable {ok : σ → π → Prop} {P : σ → Prop} {m : Prog σ π ε α}
variable {Q : α → σ → Prop} {E : ε → σ → Prop}

lemma Triple.ret {a : α} : Triple ok (Q a) (Prog.ret a : Prog σ π ε α) Q E := ⟨fun _ hs _ => hs⟩

lemma Triple.pure {a : α} : Triple ok (Q a) (pure a : Prog σ π ε α) Q E := ⟨fun _ hs _ => hs⟩

lemma Triple.fail {e : ε} : Triple ok (E e) (Prog.fail e : Prog σ π ε α) Q E := ⟨fun _ hs _ => hs⟩

lemma Triple.alter {f : σ → σ} {Q : Unit → σ → Prop} :
    Triple ok (fun s => Q () (f s)) (Prog.alter f : Prog σ π ε Unit) Q E :=
  ⟨fun _ hs _ => hs⟩

lemma Triple.look {f : σ → Except ε α} (hok : ∀ s a, P s → f s = .ok a → Q a s)
    (herr : ∀ s e, P s → f s = .error e → E e s) :
    Triple ok P (Prog.look f : Prog σ π ε α) Q E := by
  refine ⟨fun s hs _ => ?_⟩
  cases hf : f s with
  | ok a => simpa [Ends, Prog.look, hf] using hok s a hs hf
  | error e => simpa [Ends, Prog.look, hf] using herr s e hs hf

lemma Triple.act {f : σ → Except ε α × σ} (hok : ∀ s a, P s → (f s).1 = .ok a → Q a (f s).2)
    (herr : ∀ s e, P s → (f s).1 = .error e → E e (f s).2) :
    Triple ok P (Prog.act f : Prog σ π ε α) Q E := by
  refine ⟨fun s hs _ => ?_⟩
  cases hf : (f s).1 with
  | ok a => simpa [Ends, Prog.act, hf] using hok s a hs hf
  | error e => simpa [Ends, Prog.act, hf] using herr s e hs hf

lemma Triple.call {p : π} {f : σ → Except ε α × σ}
    (hok : ∀ s a, P s → ok s p → (f s).1 = .ok a → Q a (f s).2)
    (herr : ∀ s e, P s → ok s p → (f s).1 = .error e → E e (f s).2) :
    Triple ok P (Prog.call p f) Q E := by
  refine ⟨fun s hs hcalls => ?_⟩
  have hp : ok s p := hcalls (s, p) List.mem_cons_self
  cases hf : (f s).1 with
  | ok a => simpa [Ends, Prog.call, hf] using hok s a hs hp hf
  | error e => simpa [Ends, Prog.call, hf] using herr s e hs hp hf

/-- Sequencing: the first program's postcondition is the second one's
precondition. -/
lemma Triple.bind {f : α → Prog σ π ε β} {R : α → σ → Prop}
    {Q : β → σ → Prop} (hfirst : Triple ok P m R E)
    (hrest : ∀ a, Triple ok (R a) (f a) Q E) : Triple ok P (m >>= f) Q E := by
  refine ⟨fun s hs hcalls => ?_⟩
  change ∀ c ∈ (andThen m f s).calls, _ at hcalls
  change Ends (andThen m f s) Q E
  have hm := hfirst.ends s hs
  unfold Ends at hm ⊢
  unfold andThen at hcalls ⊢
  cases hres : (m s).result with
  | ok a =>
    simp only [hres, List.mem_append] at hcalls hm ⊢
    exact (hrest a).ends _ (hm fun c hc => hcalls c (.inl hc)) fun c hc => hcalls c (.inr hc)
  | error e =>
    simp only [hres] at hcalls hm ⊢
    exact hm hcalls

lemma Triple.recover {catches : ε → Bool} {handler : ε → Prog σ π ε α} {F : ε → σ → Prop}
    (hm : Triple ok P m Q F) (hcaught : ∀ e, catches e = true → Triple ok (F e) (handler e) Q E)
    (hmissed : ∀ e s, catches e = false → F e s → E e s) :
    Triple ok P (m.recover catches handler) Q E := by
  refine ⟨fun s hs hcalls => ?_⟩
  have hfirst := hm.ends s hs
  unfold Ends at hfirst ⊢
  unfold Prog.recover at hcalls ⊢
  cases hres : (m s).result with
  | ok a =>
    simp only [hres] at hcalls hfirst ⊢
    exact hfirst hcalls
  | error e =>
    simp only [hres] at hcalls hfirst ⊢
    cases hc : catches e with
    | true =>
      simp only [hc, ↓reduceIte, List.mem_append] at hcalls ⊢
      exact (hcaught e hc).ends _ (hfirst fun c hmem => hcalls c (.inl hmem))
        fun c hmem => hcalls c (.inr hmem)
    | false =>
      simp only [hc, Bool.false_eq_true, ↓reduceIte] at hcalls ⊢
      exact hmissed e _ hc (hfirst hcalls)

/-- A triple may be shown state by state. -/
lemma Triple.pointwise (h : ∀ s, P s → Triple ok (fun t => t = s) m Q E) : Triple ok P m Q E :=
  ⟨fun s hs hcalls => (h s hs).ends s rfl hcalls⟩

lemma Triple.consequence {P' : σ → Prop} {Q' : α → σ → Prop} {E' : ε → σ → Prop}
    (hm : Triple ok P m Q E) (hpre : ∀ s, P' s → P s) (hpost : ∀ a s, Q a s → Q' a s)
    (herr : ∀ e s, E e s → E' e s) : Triple ok P' m Q' E' := by
  refine ⟨fun s hs hcalls => ?_⟩
  have hend := hm.ends s (hpre s hs) hcalls
  unfold Ends at hend ⊢
  cases hres : (m s).result with
  | ok a =>
    rw [hres] at hend
    exact hpost a _ hend
  | error e =>
    rw [hres] at hend
    exact herr e _ hend

lemma Triple.of_ok (hm : Triple ok P m Q E) {s : σ} {a : α} (hs : P s)
    (hcalls : ∀ c ∈ (m s).calls, ok c.1 c.2) (hres : (m s).result = .ok a) : Q a (m s).state := by
  have hend := hm.ends s hs hcalls
  unfold Ends at hend
  rw [hres] at hend
  exact hend

end

/-- The program keeps `I`, however it ends. -/
def Keeps (ok : σ → π → Prop) (I : σ → Prop) (m : Prog σ π ε α) : Prop :=
  Triple ok I m (fun _ => I) (fun _ => I)

section

variable {ok : σ → π → Prop} {I : σ → Prop} {m : Prog σ π ε α}

lemma Keeps.state (hm : Keeps ok I m) {s : σ} (hs : I s)
    (hcalls : ∀ c ∈ (m s).calls, ok c.1 c.2) : I (m s).state := by
  have hend := hm.ends s hs hcalls
  unfold Ends at hend
  cases hres : (m s).result with
  | ok | error =>
    rw [hres] at hend
    exact hend

lemma Keeps.pure {a : α} : Keeps ok I (pure a : Prog σ π ε α) := ⟨fun _ hs _ => hs⟩

lemma Keeps.fail {e : ε} : Keeps ok I (Prog.fail e : Prog σ π ε α) := ⟨fun _ hs _ => hs⟩

lemma Keeps.look {f : σ → Except ε α} : Keeps ok I (Prog.look f : Prog σ π ε α) :=
  Triple.look (fun _ _ hs _ => hs) (fun _ _ hs _ => hs)

lemma Keeps.alter {f : σ → σ} (hf : ∀ s, I s → I (f s)) :
    Keeps ok I (Prog.alter f : Prog σ π ε Unit) :=
  ⟨fun s hs _ => hf s hs⟩

lemma Keeps.act {f : σ → Except ε α × σ} (hf : ∀ s, I s → I (f s).2) :
    Keeps ok I (Prog.act f : Prog σ π ε α) :=
  Triple.act (fun s _ hs _ => hf s hs) (fun s _ hs _ => hf s hs)

lemma Keeps.call {p : π} {f : σ → Except ε α × σ}
    (hf : ∀ s, I s → ok s p → I (f s).2) : Keeps ok I (Prog.call p f) :=
  Triple.call (fun s _ hs hp _ => hf s hs hp) (fun s _ hs hp _ => hf s hs hp)

lemma Keeps.bind {f : α → Prog σ π ε β} (hm : Keeps ok I m)
    (hf : ∀ a, Keeps ok I (f a)) : Keeps ok I (m >>= f) :=
  Triple.bind hm hf

lemma Keeps.recover {catches : ε → Bool} {handler : ε → Prog σ π ε α} (hm : Keeps ok I m)
    (hhandler : ∀ e, Keeps ok I (handler e)) : Keeps ok I (m.recover catches handler) :=
  Triple.recover hm (fun e _ => hhandler e) (fun _ _ _ hs => hs)

end
end Prog
