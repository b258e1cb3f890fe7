/-
Exit and wait: which tasks still owe a wake-up, and the runs in which no
sleeping parent misses a zombie child.
-/
import Redwing.TaskTree

namespace Redwing.TaskTree

open Option Table

/-- The old children an exiting task has still to hand to the init task. -/
def Pc.taken : Pc → List Nat
  | .exitReparent rest _ => rest
  | .exitCheck _ rest _ => rest
  | _ => []

def Pc.leaving : Pc → Bool
  | .exitReparent _ _ | .exitCheck _ _ _ | .exitWakeInit | .exitReadParent
  | .exitAdopt | .exitFinish _ | .exited => true
  | _ => false

/-- A wait for any child will not look at `child` again before it sleeps: it
sleeps already, or its cursor has passed the child. -/
def Table.Missed (s : Table) (t child : Nat) : Prop :=
  s.SleepsForAny t ∨ ∃ seen rest haveKids,
    (s t).pc = .waitScan none seen rest haveKids ∧ child ∈ seen

/-- The parent that an exiting task has read is the one it wakes.  By then it
may have been handed to the init task; the condition asks that in this case
the present parent looks at it again, or is still to be woken by somebody. -/
def Table.wakesParent (s : Table) : Action → Prop
  | .advance t => ∀ parentref parent,
      (s t).pc = .exitFinish parentref → (s t).parent = some parent →
      parent = parentref ∨ ¬ s.Missed parent t ∨ ∃ e, s.PendingWake e parent
  | _ => True

/-- The shape of the task tree and of the lists in flight, and the report
every missed zombie is due. -/
structure Table.Inv (s : Table) : Prop where
  linked : ∀ t c, c ∈ (s t).children → (s c).parent = some t
  taken : ∀ t c, c ∈ (s t).pc.taken → (s c).parent = some t
  nodup : ∀ t, (s t).children.Nodup
  takenNodup : ∀ t, (s t).pc.taken.Nodup
  leaving : ∀ t, (s t).pc.leaving = true → (s t).children = []
  cursor : ∀ t qtid seen rest haveKids,
    (s t).pc = .waitScan qtid seen rest haveKids → (s t).children = seen ++ rest
  initParent : (s initTid).parent = none
  initStarted : (s initTid).state ≠ .initialized
  initStays : (s initTid).pc.leaving = false ∧ (s initTid).pc ≠ .exitTake
  adopt : ∀ t, (s t).pc = .exitAdopt → ∀ x, t ∉ (s x).children ∧ t ∉ (s x).pc.taken
  zombie : ∀ t, (s t).state = .zombie ↔ (s t).pc = .exited
  fresh : ∀ t, (s t).state = .initialized →
    (s t).parent = none ∧ (s t).children = [] ∧ (s t).pc = .user
  reaping : ∀ t c, (s t).pc = .waitReap c → (s c).state = .zombie
  reaped : ∀ t, (s t).reaped = true ∨ (s t).dropped = true → (s t).state = .zombie
  reported : ∀ t c, c ∈ (s t).children → (s c).state = .zombie →
    s.Missed t c → ∃ e, s.PendingWake e t

lemma Table.boot_inv : boot.Inv := by
  constructor <;>
    grind -linarith [boot, Task.new, Pc.taken, Pc.leaving]

@[simp, grind =] lemma Table.set_apply (s : Table) (task : Task) :
    s.set t task x = if x = t then task else s x := rfl

variable {s : Table} {t child : Nat}

lemma Table.PendingWake.congr {s' : Table} {e : Nat} (hpc : (s' e).pc = (s e).pc)
    (hzombie : ∀ c, (s c).state = .zombie → (s' c).state = .zombie)
    (h : s.PendingWake e t) : s'.PendingWake e t := by
  unfold Table.PendingWake at h ⊢
  rw [hpc]
  split at h <;> try exact h
  exact ⟨h.1, h.2.imp_right (hzombie _)⟩

/-- A step that rewrites one task without touching the tree keeps the
invariant, provided that its place in the code does not take over children,
that a report it drops is no longer due, and that whatever it newly misses has
been reported. -/
lemma Table.Inv.rewrite (h : s.Inv) (hparent : task.parent = (s t).parent)
    (hchildren : task.children = (s t).children)
    (hstate : task.state = .zombie ↔ (s t).state = .zombie)
    (hpc : task.state = .zombie ↔ task.pc = .exited)
    (hstarted : task.state = .initialized → (s t).state = .initialized ∧ task.pc = .user)
    (htaken : task.pc.taken <:+ (s t).pc.taken)
    (hleaving : task.pc.leaving = true → (s t).children = [])
    (hinit : t = initTid → task.pc.leaving = false ∧ task.pc ≠ .exitTake)
    (hcursor : ∀ qtid seen rest haveKids, task.pc = .waitScan qtid seen rest haveKids →
        (s t).children = seen ++ rest)
    (hadopt : task.pc = .exitAdopt → ∀ x, t ∉ (s x).children ∧ t ∉ (s x).pc.taken)
    (hreaping : ∀ c, task.pc = .waitReap c → (s c).state = .zombie)
    (hreaped : task.reaped = true ∨ task.dropped = true → (s t).state = .zombie)
    (hpending : ∀ x, s.PendingWake t x → (s.set t task).PendingWake t x ∨
      ∀ c, ¬ (s.set t task).Missed x c)
    (hmissed : ∀ c ∈ (s t).children, (s c).state = .zombie → (s.set t task).Missed t c →
        s.Missed t c ∨ ∃ e, e ≠ t ∧ s.PendingWake e t) :
    (s.set t task).Inv := by
  have hzombies : ∀ c, ((s.set t task) c).state = .zombie ↔ (s c).state = .zombie := by
    intro c
    grind -linarith
  have hsub := htaken.subset
  have hnodup := htaken.sublist.nodup
  constructor
  case reported =>
    -- a report of another task survives, one of this task moves or is not due
    intro x c hc hz hmiss
    rw [hzombies] at hz
    have hkeep : ∀ e, e ≠ t → s.PendingWake e x → (s.set t task).PendingWake e x := by
      intro e he
      exact Table.PendingWake.congr (by simp [he]) fun c => (hzombies c).2
    have hold : (∃ e, s.PendingWake e x) → ∃ e, (s.set t task).PendingWake e x := by
      rintro ⟨e, he⟩
      by_cases het : e = t
      · subst het
        rcases hpending x he with hstill | hnot
        · exact ⟨e, hstill⟩
        · exact absurd hmiss (hnot c)
      · exact ⟨e, hkeep e het he⟩
    by_cases hxt : x = t
    · subst hxt
      simp only [set_apply, ↓reduceIte, hchildren] at hc
      rcases hmissed c hc hz hmiss with hbefore | ⟨e, het, he⟩
      · exact hold (h.reported x c hc hz hbefore)
      · exact ⟨e, hkeep e het he⟩
    apply hold
    refine h.reported x c (by simpa [hxt] using hc) hz ?_
    simpa [Table.Missed, Table.SleepsForAny, hxt] using hmiss
  all_goals
    cases h
    grind -linarith

@[simp, grind =] lemma Table.reparent_pc (s : Table) (child parent x : Nat) :
    (s.reparent child parent x).pc = (s x).pc := by
  simp only [reparent, set_apply]
  grind -linarith

@[simp, grind =] lemma Table.reparent_state (s : Table) (child parent x : Nat) :
    (s.reparent child parent x).state = (s x).state := by
  simp only [reparent, set_apply]
  grind -linarith

@[simp, grind =] lemma Table.reparent_children (s : Table) (child parent x : Nat) :
    (s.reparent child parent x).children =
      if x = parent then (s x).children ++ [child] else (s x).children := by
  simp only [reparent, set_apply]
  grind -linarith

@[simp, grind =] lemma Table.reparent_parent (s : Table) (child parent x : Nat) :
    (s.reparent child parent x).parent =
      if x = child then some parent else (s x).parent := by
  simp only [reparent, set_apply]
  grind -linarith

@[simp, grind =] lemma Table.reparent_reaped (s : Table) (child parent x : Nat) :
    (s.reparent child parent x).reaped = (s x).reaped := by
  simp only [reparent, set_apply]
  grind -linarith

@[simp, grind =] lemma Table.reparent_dropped (s : Table) (child parent x : Nat) :
    (s.reparent child parent x).dropped = (s x).dropped := by
  simp only [reparent, set_apply]
  grind -linarith

lemma Table.Inv.reparent (h : s.Inv)
    (hunlisted : ∀ x, child ∉ (s x).children ∧ child ∉ (s x).pc.taken) (hchild : child ≠ initTid)
    (hstarted : (s child).state ≠ .initialized) (hpstarted : (s parent).state ≠ .initialized)
    (hparent : (s parent).pc.leaving = false) (hunlocked : (s parent).locked = false)
    (hadopt : (s child).pc ≠ .exitAdopt)
    (hreported : (s child).state = .zombie → ∃ e, s.PendingWake e parent) :
    (s.reparent child parent).Inv := by
  constructor
  case reported =>
    intro x c hc hz hmiss
    have hmiss' : s.Missed x c := by simpa [Table.Missed, Table.SleepsForAny] using hmiss
    rw [reparent_state] at hz
    have hreport : ∃ e, s.PendingWake e x := by
      by_cases hold : c ∈ (s x).children
      · exact h.reported x c hold hz hmiss'
      have hnew : x = parent ∧ c = child := by grind
      rw [hnew.1]
      exact hreported (hnew.2 ▸ hz)
    exact hreport.imp fun e he => he.congr (by simp) (by simp)
  all_goals
    cases h
    grind -linarith [Task.locked]

lemma Table.Inv.take (h : s.Inv) (hpc : (s t).pc = .exitTake) : (s.set t { s t with
    children := [], pc := .exitReparent (s t).children false }).Inv := by
  have hstate : (s t).state ≠ .zombie := by
    have := h.zombie t
    grind -linarith
  constructor
  case reported =>
    intro x c hc hz hmiss
    have hxt : x ≠ t := by
      rintro rfl
      simp at hc
    have hz' : (s c).state = .zombie := by grind
    obtain ⟨e, he⟩ := h.reported x c (by simpa [hxt] using hc) hz'
      (by simpa [Table.Missed, Table.SleepsForAny, hxt] using hmiss)
    have het : e ≠ t := by
      rintro rfl
      simp [Table.PendingWake, hpc] at he
    exact ⟨e, he.congr (by simp [het]) (by grind)⟩
  all_goals
    cases h
    grind -linarith [Pc.taken]

lemma Table.Inv.unlink (h : s.Inv)
    (hpc : (s t).pc = .waitScan qtid seen (child :: rest) haveKids) :
    (s.set t { s t with
      children := seen ++ rest, pc := .waitScan qtid seen rest haveKids }).Inv := by
  have hchildren := h.cursor t _ _ _ _ hpc
  have hsub : ∀ c ∈ seen ++ rest, c ∈ (s t).children := by grind
  constructor
  case reported =>
    intro x c hc hz hmiss
    have hz' : (s c).state = .zombie := by grind
    have hreport : ∃ e, s.PendingWake e x := by
      refine h.reported x c ?_ hz' ?_
      · grind -linarith
      by_cases hxt : x = t
      · grind -linarith [Table.Missed, Table.SleepsForAny]
      · simpa [Table.Missed, Table.SleepsForAny, hxt] using hmiss
    obtain ⟨e, he⟩ := hreport
    have het : e ≠ t := by
      rintro rfl
      simp [Table.PendingWake, hpc] at he
    exact ⟨e, he.congr (by simp [het]) (by grind)⟩
  all_goals
    cases h
    grind -linarith [Pc.taken, Pc.leaving]

lemma Table.Inv.orphan (h : s.Inv)
    (hunlisted : ∀ x, child ∉ (s x).children ∧ child ∉ (s x).pc.taken) :
    (s.set child { s child with parent := none }).Inv := by
  constructor
  case reported =>
    intro x c hc hz hmiss
    have hreport := h.reported x c (by grind) (by grind)
      (by grind [Table.Missed, Table.SleepsForAny])
    exact hreport.imp fun e he => he.congr (by grind) (by grind)
  all_goals
    cases h
    grind -linarith

lemma Table.Inv.finish (h : s.Inv) (hpc : (s t).pc = .exitFinish parentref)
    (hawake : ∀ c, ¬ s.Missed parentref c)
    (hdue : ∀ x, t ∈ (s x).children → s.Missed x t → ∃ e, e ≠ t ∧ s.PendingWake e x) :
    (s.set t { s t with state := .zombie, pc := .exited }).Inv := by
  have hempty : (s t).children = [] := h.leaving t (by simp [hpc, Pc.leaving])
  constructor
  case reported =>
    intro x c hc hz hmiss
    have hxt : x ≠ t := by
      rintro rfl
      simp [hempty] at hc
    have hc' : c ∈ (s x).children := by simpa [hxt] using hc
    have hmiss' : s.Missed x c := by simpa [Table.Missed, Table.SleepsForAny, hxt] using hmiss
    have hreport : ∃ e, e ≠ t ∧ s.PendingWake e x := by
      by_cases hct : c = t
      · exact hdue x (hct ▸ hc') (hct ▸ hmiss')
      obtain ⟨e, he⟩ := h.reported x c hc' (by simpa [hct] using hz) hmiss'
      refine ⟨e, ?_, he⟩
      rintro rfl
      simp only [Table.PendingWake, hpc] at he
      exact hawake c (he ▸ hmiss')
    obtain ⟨e, het, he⟩ := hreport
    exact ⟨e, he.congr (by simp [het]) (by grind)⟩
  all_goals
    cases h
    grind -linarith [Pc.taken, Pc.leaving]

lemma Table.Inv.unlisted_of_taken (h : s.Inv) (hchild : (s child).parent = some t)
    (hempty : (s t).children = []) : child ∉ (s x).children := by
  intro hx
  have hxt : x = t := by
    have := h.linked x child hx
    grind -linarith
  simp [hxt, hempty] at hx

variable {s s' : Table} {t child : Nat} {pc : Pc}

lemma Table.Inv.setFlags (h : s.Inv) (hparent : task.parent = (s t).parent)
    (hchildren : task.children = (s t).children) (hpc : task.pc = (s t).pc)
    (hzombie : task.state = .zombie ↔ (s t).state = .zombie)
    (hfresh : task.state = .initialized → (s t).state = .initialized)
    (hsleep : task.state = .waitting → (s t).state = .waitting)
    (hreaped : task.reaped = true ∨ task.dropped = true → (s t).state = .zombie) :
    (s.set t task).Inv := by
  refine h.rewrite hparent hchildren hzombie ?_ ?_ ?_ ?_ ?_ ?_ ?_ ?_ hreaped ?_ ?_
  · rw [hzombie, hpc]
    exact h.zombie t
  · exact fun hf => ⟨hfresh hf, hpc.trans (h.fresh t (hfresh hf)).2.2⟩
  · exact hpc ▸ List.suffix_refl _
  · rw [hpc]
    exact h.leaving t
  · rintro rfl
    rw [hpc]
    exact h.initStays
  · rw [hpc]
    exact h.cursor t
  · rw [hpc]
    exact h.adopt t
  · rw [hpc]
    exact h.reaping t
  · exact fun x hx => .inl (hx.congr (by simp [hpc]) (by grind))
  intro c _ _ hmiss
  left
  simp only [Table.Missed, Table.SleepsForAny, set_apply, ↓reduceIte, hpc] at hmiss
  exact hmiss.imp_left (.imp_left hsleep)

lemma Table.Inv.wakeup (h : s.Inv) (t : Nat) : (s.set t (s t).wakeupIfWaiting).Inv := by
  have hreaped := h.reaped t
  apply h.setFlags <;> grind [Task.wakeupIfWaiting]

lemma Table.Inv.setPc (h : s.Inv) (hrun : (s t).state = .running) (hexited : pc ≠ .exited)
    (htaken : pc.taken <:+ (s t).pc.taken)
    (hleaving : pc.leaving = true → (s t).pc.leaving = true)
    (hinit : t = initTid → pc ≠ .exitTake)
    (hcursor : ∀ qtid seen rest haveKids,
      pc = .waitScan qtid seen rest haveKids → (s t).children = seen ++ rest)
    (hadopt : pc = .exitAdopt → ∀ x, t ∉ (s x).children ∧ t ∉ (s x).pc.taken)
    (hreaping : ∀ c, pc = .waitReap c → (s c).state = .zombie)
    (hpending : ∀ x, s.PendingWake t x → (s.set t { s t with pc := pc }).PendingWake t x ∨
        ∀ c, x ≠ t ∧ ¬ s.Missed x c)
    (hseen : ∀ seen rest haveKids, pc = .waitScan none seen rest haveKids →
      ∀ c ∈ seen, (s c).state = .zombie → s.Missed t c) :
    (s.set t { s t with pc := pc }).Inv := by
  refine h.rewrite rfl rfl Iff.rfl ?_ ?_ htaken ?_ ?_ hcursor hadopt hreaping ?_ ?_ ?_
  · simp [hrun, hexited]
  · simp [hrun]
  · exact fun hl => h.leaving t (hleaving hl)
  · intro ht
    refine ⟨?_, hinit ht⟩
    by_contra hl
    have := h.initStays
    grind -linarith
  · exact h.reaped t
  · intro x hx
    refine (hpending x hx).imp_right fun hnot c => ?_
    have hxt := (hnot c).1
    simpa [Table.Missed, Table.SleepsForAny, hxt] using (hnot c).2
  intro c _ hz hmiss
  left
  rcases hmiss with hsleep | ⟨seen, rest, haveKids, hpc, hc⟩
  · simp [Table.SleepsForAny, hrun] at hsleep
  · exact hseen seen rest haveKids (by simpa using hpc) c hc hz

/-- The points from which nobody is woken, and which hold no list. -/
def Pc.quiet : Pc → Bool
  | .user | .waitLoop _ | .waitSleep _ | .exitTake => true
  | _ => false

section

variable (h : s.Inv) (hrun : (s t).state = .running)

include h hrun

lemma Table.Inv.setQuiet (hquiet : pc.quiet = true) (hpending : ∀ x, ¬ s.PendingWake t x)
    (hinit : t = initTid → pc ≠ .exitTake) : (s.set t { s t with pc := pc }).Inv := by
  refine h.setPc hrun ?_ ?_ ?_ hinit ?_ ?_ ?_ ?_ ?_
  · rintro rfl
    simp [Pc.quiet] at hquiet
  · have hnil : pc.taken = [] := by cases pc <;> simp_all [Pc.quiet, Pc.taken]
    simp [hnil]
  · cases pc <;> simp_all [Pc.quiet, Pc.leaving]
  · rintro _ _ _ _ rfl
    simp [Pc.quiet] at hquiet
  · rintro rfl
    simp [Pc.quiet] at hquiet
  · rintro _ rfl
    simp [Pc.quiet] at hquiet
  · exact fun x hx => absurd hx (hpending x)
  · rintro _ _ _ rfl
    simp [Pc.quiet] at hquiet

lemma Table.Inv.setLeaving (hq : (s t).pc = q)
    (hleaving : q.leaving = true ∧ pc.leaving = true ∧ pc ≠ .exited)
    (htaken : pc.taken <:+ q.taken)
    (hadopt : pc = .exitAdopt → ∀ x, t ∉ (s x).children ∧ t ∉ (s x).pc.taken)
    (hpending : ∀ x, s.PendingWake t x → (s.set t { s t with pc := pc }).PendingWake t x ∨
        ∀ c, x ≠ t ∧ ¬ s.Missed x c) :
    (s.set t { s t with pc := pc }).Inv := by
  subst hq
  obtain ⟨hold, hnew, hexited⟩ := hleaving
  refine h.setPc hrun hexited htaken (fun _ => hold) ?_ ?_ hadopt ?_ hpending ?_
  · rintro _ rfl
    cases hnew
  · rintro _ _ _ _ rfl
    cases hnew
  · rintro _ rfl
    cases hnew
  · rintro _ _ _ rfl
    cases hnew

lemma Table.Inv.waitGiveUp (hpc : (s t).pc = .waitScan qtid seen rest haveKids)
    (hall : qtid' = none → qtid = none ∧ rest = []) : (s.waitGiveUp t qtid' haveKids').Inv := by
  have hpending : ∀ x, ¬ s.PendingWake t x := by simp [Table.PendingWake, hpc]
  have hchildren := h.cursor t _ _ _ _ hpc
  unfold Table.waitGiveUp
  split
  · refine h.rewrite rfl rfl ?_ ?_ ?_ ?_ ?_ ?_ ?_ ?_ ?_ ?_ ?_ ?_
    · simp [hrun]
    · simp
    · simp
    · simp [Pc.taken]
    · simp [Pc.leaving]
    · simp [Pc.leaving]
    · simp
    · simp
    · simp
    · exact h.reaped t
    · exact fun x hx => absurd hx (hpending x)
    · -- the cursor has passed all children when the wait is for any child
      intro c hc _ hmiss
      left
      have hnone : qtid' = none := by simpa [Table.Missed, Table.SleepsForAny] using hmiss
      obtain ⟨hqtid, hrest⟩ := hall hnone
      refine .inr ⟨seen, rest, haveKids, hqtid ▸ hpc, ?_⟩
      simpa [hchildren, hrest] using hc
  · exact h.setQuiet hrun rfl hpending (by simp)

lemma Table.Inv.scanChild (hpc : (s t).pc = .waitScan qtid seen (child :: rest) haveKids)
    (hstep : s.scanChild t qtid seen rest child haveKids = some s') : s'.Inv := by
  have hchildren := h.cursor t _ _ _ _ hpc
  have hpending : ∀ x, ¬ s.PendingWake t x := by simp [Table.PendingWake, hpc]
  have hnext : ∀ haveKids', (qtid = none → (s child).state ≠ .zombie) → (s.set t { s t with
      pc := .waitScan qtid (seen ++ [child]) rest haveKids' }).Inv := by
    intro haveKids' halive
    refine h.setPc hrun (by simp) (by simp [Pc.taken]) (by simp [Pc.leaving])
      (by simp) ?_ (by simp) (by simp) (fun x hx => absurd hx (hpending x)) ?_
    · intro qtid' seen' rest' haveKids'' heq
      simp only [Pc.waitScan.injEq] at heq
      obtain ⟨_, rfl, rfl, _⟩ := heq
      simp [hchildren]
    intro seen' rest' haveKids'' heq c hc hz
    simp only [Pc.waitScan.injEq] at heq
    obtain ⟨hnone, rfl, rfl, _⟩ := heq
    refine .inr ⟨seen, child :: rest, haveKids, hnone ▸ hpc, ?_⟩
    grind -linarith
  unfold Table.scanChild at hstep
  split at hstep
  · cases hstep
    exact h.unlink hpc
  split at hstep
  · rename_i hother
    cases hstep
    exact hnext haveKids fun hnone => absurd hnone hother.1
  · split at hstep
    · cases hstep
    · split at hstep
      · rename_i halive
        split at hstep
        · rename_i hsome
          cases hstep
          exact h.waitGiveUp hrun hpc fun hnone => absurd hnone hsome
        · cases hstep
          exact hnext true fun _ => halive
      · -- the zombie leaves the list, loses its parent and is reaped next
        rename_i hzombie
        simp only [ne_eq, Decidable.not_not] at hzombie
        cases hstep
        have hct : child ≠ t := by
          rintro rfl
          simp [hrun] at hzombie
        have hmem : child ∈ (s t).children := by simp [hchildren]
        have hparent := h.linked t child hmem
        have hnodup := h.nodup t
        let unlinked : Table := s.set t { s t with
          children := seen ++ rest, pc := .waitScan qtid seen rest haveKids }
        have hunlisted : ∀ x, child ∉ (unlinked x).children ∧ child ∉ (unlinked x).pc.taken := by
          intro x
          have hlinked := h.linked x child
          have htaken := h.taken x child
          have hleaving := h.leaving t
          constructor
          · grind -linarith
          · grind -linarith [Pc.taken]
        let orphaned : Table := unlinked.set child { unlinked child with parent := none }
        have horphan : orphaned.Inv := (h.unlink hpc).orphan hunlisted
        have horphanPc : (orphaned t).pc = .waitScan qtid seen rest haveKids := by
          simp [orphaned, unlinked, hct.symm]
        have hreap : (orphaned.set t { orphaned t with
            pc := .waitReap child }).Inv := by
          refine horphan.setPc ?_ (by simp) (by simp [Pc.taken])
            (by simp [Pc.leaving]) (by simp) (by simp) (by simp) ?_ ?_ (by simp)
          · simp [orphaned, unlinked, hrun, hct.symm]
          · intro c hc
            simp only [Pc.waitReap.injEq] at hc
            simp [orphaned, unlinked, ← hc, hct, hzombie]
          · intro x hx
            simp [Table.PendingWake, horphanPc] at hx
        convert hreap using 1
        funext x
        simp only [orphaned, unlinked, set_apply]
        grind -linarith

lemma Table.Inv.waitStep (hstep : s.waitStep t = some s') : s'.Inv := by
  unfold Table.waitStep at hstep
  split at hstep
  · rename_i qtid hpc
    have hpending : ∀ x, ¬ s.PendingWake t x := by simp [Table.PendingWake, hpc]
    split at hstep
    · cases hstep
      exact h.setQuiet hrun rfl hpending (by simp)
    cases hstep
    refine h.setPc hrun (by simp) (by simp [Pc.taken]) (by simp [Pc.leaving])
      (by simp) ?_ (by simp) (by simp) (fun x hx => absurd hx (hpending x)) ?_
    · intro qtid' seen rest haveKids heq
      simp only [Pc.waitScan.injEq] at heq
      obtain ⟨_, rfl, rfl, _⟩ := heq
      rfl
    intro seen rest haveKids heq c hc
    simp only [Pc.waitScan.injEq] at heq
    simp [← heq.2.1] at hc
  · rename_i qtid seen haveKids hpc
    cases hstep
    exact h.waitGiveUp hrun hpc fun hnone => ⟨hnone, rfl⟩
  · rename_i qtid seen child rest haveKids hpc
    exact h.scanChild hrun hpc hstep
  · rename_i qtid hpc
    have hpending : ∀ x, ¬ s.PendingWake t x := by simp [Table.PendingWake, hpc]
    split at hstep <;>
    · cases hstep
      exact h.setQuiet hrun rfl hpending (by simp)
  · rename_i child hpc
    cases hstep
    have hzombie := h.reaping t child hpc
    have hct : child ≠ t := by
      rintro rfl
      simp [hrun] at hzombie
    let left : Table := s.set child { s child with reaped := true }
    have hleft : left.Inv := h.setFlags rfl rfl rfl Iff.rfl id id fun _ => hzombie
    have hdone : (left.set t { left t with pc := .user }).Inv := by
      refine hleft.setQuiet (by simp [left, hct.symm, hrun]) rfl ?_ (by simp)
      simp [Table.PendingWake, left, hct.symm, hpc]
    convert hdone using 1
    funext x
    simp only [left, set_apply]
    grind -linarith
  · cases hstep

end

lemma Table.reparent_setPc (s : Table) (ht : t ≠ parent) (pc : Pc) :
    (s.reparent child parent).set t { s.reparent child parent t with pc := pc } =
      (s.set t { s t with pc := pc }).reparent child parent := by
  funext x
  simp only [reparent, set_apply]
  grind -linarith

section

variable (h : s.Inv)

include h

/-- Handing one old child to the init task: the exiting task reads the state
of the child next, so a zombie handed over is reported. -/
lemma Table.Inv.handOver (hrun : (s t).state = .running)
    (hpc : (s t).pc = .exitReparent (child :: rest) containsZombie)
    (hinit : (s initTid).locked = false) : let s₁ := s.reparent child initTid
    (s₁.set t { s₁ t with pc := .exitCheck child rest containsZombie }).Inv := by
  intro s₁
  have hti : t ≠ initTid := by
    rintro rfl
    have := h.initStays.1
    simp [hpc, Pc.leaving] at this
  have hempty := h.leaving t (by simp [hpc, Pc.leaving])
  have hparent : (s child).parent = some t := h.taken t child (by simp [hpc, Pc.taken])
  have hchildInit : child ≠ initTid := by
    rintro rfl
    simp [h.initParent] at hparent
  have hnodup := h.takenNodup t
  let moved : Table := s.set t { s t with pc := .exitCheck child rest containsZombie }
  have hmoved : moved.Inv := by
    refine h.setLeaving hrun hpc ⟨rfl, rfl, nofun⟩ (by simp [Pc.taken]) nofun ?_
    grind -linarith [Table.PendingWake]
  have hdone : (moved.reparent child initTid).Inv := by
    refine hmoved.reparent ?_ hchildInit ?_ ?_ ?_ ?_ ?_ ?_
    · intro x
      have hunlisted := h.unlisted_of_taken (x := x) hparent hempty
      have htaken := h.taken x child
      constructor
      · grind -linarith
      · grind -linarith [Pc.taken]
    · have := h.fresh child
      grind -linarith
    · have := h.initStarted
      grind -linarith
    · have := h.initStays.1
      grind -linarith
    · grind -linarith [Task.locked]
    · have := h.adopt child
      have hmem : child ∈ (s t).pc.taken := by simp [hpc, Pc.taken]
      grind -linarith
    · intro hz
      exact ⟨t, by simpa [Table.PendingWake, moved] using .inr hz⟩
  exact (s.reparent_setPc hti _) ▸ hdone

lemma Table.Inv.unlisted_of_readParent
    (hparent : ∀ parent, (s t).parent = some parent → (s parent).dropped = true) (x : Nat) :
    t ∉ (s x).children ∧ t ∉ (s x).pc.taken := by
  have hgone : ∀ parent, (s t).parent = some parent →
      (s parent).pc = .exited ∧ (s parent).children = [] := by
    intro parent hp
    have hexited := (h.zombie parent).1 (h.reaped parent (.inr (hparent parent hp)))
    exact ⟨hexited, h.leaving parent (by simp [hexited, Pc.leaving])⟩
  constructor
  · intro hx
    have := hgone x (h.linked x t hx)
    simp [this.2] at hx
  intro hx
  have := hgone x (h.taken x t hx)
  simp [this.1, Pc.taken] at hx

lemma Table.Inv.exitFinish (hpc : (s t).pc = .exitFinish parentref)
    (hok : s.wakesParent (.advance t)) (hunlocked : (s parentref).locked = false) :
    let s₁ := s.set t { s t with state := .zombie, pc := .exited }
    (s₁.set parentref (s₁ parentref).wakeupIfWaiting).Inv := by
  intro s₁
  have hawake : ∀ c, ¬ (s.set parentref (s parentref).wakeupIfWaiting).Missed parentref c := by
    grind -linarith [Table.Missed, Table.SleepsForAny, Task.wakeupIfWaiting, Task.locked]
  by_cases hself : parentref = t
  · -- a task that has read itself as its parent is not waiting
    subst hself
    have hmiss : ∀ c, ¬ s.Missed parentref c := by simp [Table.Missed, Table.SleepsForAny, hpc]
    have hdone : s₁.Inv := by
      refine h.finish hpc hmiss fun x hx hxmiss => ?_
      rcases hok parentref x hpc (h.linked x parentref hx) with heq | hnot | ⟨e, he⟩
      · exact absurd (heq ▸ hxmiss) (hmiss _)
      · exact absurd hxmiss hnot
      refine ⟨e, ?_, he⟩
      rintro rfl
      simp only [Table.PendingWake, hpc] at he
      rw [← he] at hxmiss
      exact hmiss _ hxmiss
    convert hdone using 1
    funext x
    by_cases hx : x = parentref
    · simp [s₁, hx, Task.wakeupIfWaiting]
    · simp [hx]
  · let woken : Table := s.set parentref (s parentref).wakeupIfWaiting
    have hwokenT : woken t = s t := by simp [woken, Ne.symm hself]
    have hpcs : ∀ x, (woken x).pc = (s x).pc := by grind [Task.wakeupIfWaiting]
    have hzombies : ∀ x, (s x).state = .zombie → (woken x).state = .zombie := by
      grind -linarith [Task.wakeupIfWaiting]
    have hdone : (woken.set t { woken t with
        state := .zombie, pc := .exited }).Inv := by
      have hwoken : woken.Inv := h.wakeup parentref
      refine hwoken.finish (hwokenT ▸ hpc) hawake fun x hx hxmiss => ?_
      have hxp : x ≠ parentref := by
        rintro rfl
        exact hawake t hxmiss
      have hx' : t ∈ (s x).children := by simpa [woken, hxp] using hx
      have hxmiss' : s.Missed x t := by
        simpa [Table.Missed, Table.SleepsForAny, woken, hxp] using hxmiss
      rcases hok parentref x hpc (h.linked x t hx') with heq | hnot | ⟨e, he⟩
      · exact absurd heq hxp
      · exact absurd hxmiss' hnot
      refine ⟨e, ?_, he.congr (hpcs e) hzombies⟩
      rintro rfl
      simp only [Table.PendingWake, hpc] at he
      exact hxp he.symm
    convert hdone using 1
    funext x
    simp only [s₁, woken, set_apply]
    grind -linarith

lemma Table.Inv.exitStep (hrun : (s t).state = .running) (hok : s.wakesParent (.advance t))
    (hstep : s.exitStep t = some s') : s'.Inv := by
  have hti : (s t).pc.leaving = true → t ≠ initTid := by
    rintro hl rfl
    simp [h.initStays.1] at hl
  unfold Table.exitStep at hstep
  split at hstep
  · rename_i hpc
    cases hstep
    exact h.take hpc
  · rename_i containsZombie hpc
    split at hstep
    · cases hstep
      refine h.setLeaving hrun hpc ⟨rfl, rfl, nofun⟩ (by simp [Pc.taken]) nofun ?_
      grind -linarith [Table.PendingWake]
    rename_i hnone
    cases hstep
    refine h.setLeaving hrun hpc ⟨rfl, rfl, nofun⟩ (by simp [Pc.taken]) nofun ?_
    grind -linarith [Table.PendingWake]
  · rename_i child rest containsZombie hpc
    split at hstep
    · cases hstep
      refine h.setLeaving hrun hpc ⟨rfl, rfl, nofun⟩ (by simp [Pc.taken]) nofun ?_
      grind -linarith [Table.PendingWake]
    split at hstep
    · cases hstep
    · rename_i hunlocked
      cases hstep
      exact h.handOver hrun hpc (by simpa using fun hl => hunlocked (.inl hl))
  · rename_i child rest containsZombie hpc
    split at hstep
    · cases hstep
      refine h.setLeaving hrun hpc ⟨rfl, rfl, nofun⟩ (by simp [Pc.taken]) nofun ?_
      grind -linarith [Table.PendingWake]
    rename_i hnone
    split at hstep
    · cases hstep
    cases hstep
    refine h.setLeaving hrun hpc ⟨rfl, rfl, nofun⟩ (by simp [Pc.taken]) nofun ?_
    grind -linarith [Table.PendingWake]
  · rename_i hpc
    have hne := hti (by simp [hpc, Pc.leaving])
    split at hstep
    · cases hstep
    rename_i hunlocked
    cases hstep
    let woken : Table := s.set initTid (s initTid).wakeupIfWaiting
    have hwokenT : woken t = s t := by simp [woken, hne]
    have hdone : (woken.set t { woken t with pc := .exitReadParent }).Inv := by
      have hwoken : woken.Inv := h.wakeup initTid
      refine hwoken.setLeaving (hwokenT ▸ hrun) (hwokenT ▸ hpc)
        ⟨rfl, rfl, nofun⟩ (by simp [Pc.taken]) nofun ?_
      intro x hx
      right
      have hxi : x = initTid := by simpa [Table.PendingWake, hwokenT, hpc] using hx
      subst hxi
      intro c
      refine ⟨Ne.symm hne, ?_⟩
      grind -linarith [Table.Missed, Table.SleepsForAny, Task.wakeupIfWaiting, Task.locked]
    exact hdone
  · rename_i hpc
    have hno : ∀ x, ¬ s.PendingWake t x := by simp [Table.PendingWake, hpc]
    have hadopt : (∀ parent, (s t).parent = some parent → (s parent).dropped = true) →
        (s.set t { s t with pc := .exitAdopt }).Inv := by
      intro hparent
      exact h.setPc hrun (by simp) (by simp [Pc.taken]) (by simp [hpc, Pc.leaving]) (by simp)
        (by simp) (fun _ => h.unlisted_of_readParent hparent) (by simp)
        (fun x hx => absurd hx (hno x)) (by simp)
    split at hstep
    · rename_i parent hparent
      split at hstep
      · rename_i hdropped
        cases hstep
        refine hadopt fun other hother => ?_
        rw [hparent, some.injEq] at hother
        exact hother ▸ hdropped
      cases hstep
      exact h.setPc hrun (by simp) (by simp [Pc.taken]) (by simp [hpc, Pc.leaving]) (by simp)
        (by simp) (by simp) (by simp) (fun x hx => absurd hx (hno x)) (by simp)
    rename_i hparent
    cases hstep
    exact hadopt fun other hother => by simp [hparent] at hother
  · rename_i hpc
    have hne := hti (by simp [hpc, Pc.leaving])
    split at hstep
    · cases hstep
    rename_i hunlocked
    cases hstep
    have hunlisted := h.adopt t hpc
    let moved : Table := s.set t { s t with pc := .exitFinish initTid }
    have hmoved : moved.Inv := by
      refine h.setLeaving hrun hpc ⟨rfl, rfl, nofun⟩ (by simp [Pc.taken]) nofun ?_
      grind -linarith [Table.PendingWake]
    have hdone : (moved.reparent t initTid).Inv := by
      refine hmoved.reparent ?_ hne ?_ ?_ ?_ ?_ ?_ ?_
      · intro x
        have := hunlisted x
        grind -linarith [Pc.taken]
      · simp [moved, hrun]
      · have := h.initStarted
        grind -linarith
      · have := h.initStays.1
        grind -linarith
      · grind -linarith
      · simp [moved]
      · simp [moved, hrun]
    exact (s.reparent_setPc hne _) ▸ hdone
  · rename_i parentref hpc
    split at hstep
    · cases hstep
    rename_i hunlocked
    cases hstep
    exact h.exitFinish hpc hok (by simpa using hunlocked)
  · cases hstep

lemma Table.Inv.advance (hok : s.wakesParent (.advance t))
    (hstep : s.step (.advance t) = some s') : s'.Inv := by
  simp only [step, ite_none_right_eq_some, or_eq_some_iff] at hstep
  obtain ⟨hrun, hwait | ⟨_, hexit⟩⟩ := hstep
  · exact h.waitStep hrun hwait
  · exact h.exitStep hrun hok hexit

lemma Table.Inv.setState (hold : (s t).state ≠ .zombie ∧ (s t).state ≠ .initialized)
    (hnew : state = .running ∨ state = .runable) :
    (s.set t { s t with state := state, interrupted := interrupted }).Inv := by
  refine h.setFlags rfl rfl rfl ?_ ?_ ?_ (h.reaped t) <;>
    rcases hnew with rfl | rfl <;> simp [hold.1]

lemma Table.Inv.startOrphan (hchild : (s child).state = .initialized) :
    (s.set child { s child with state := .runable }).Inv := by
  refine h.setFlags rfl rfl rfl ?_ ?_ ?_ (h.reaped child) <;> simp [hchild]

lemma Table.Inv.fork (hrun : (s t).state = .running) (hpc : (s t).pc = .user)
    (hchild : (s child).state = .initialized) :
    ((s.set t { s t with children := (s t).children ++ [child] }).set
      child { s child with state := .runable, parent := some t }).Inv := by
  have hct : child ≠ t := by
    rintro rfl
    simp [hrun] at hchild
  have hfresh := h.fresh child hchild
  have hci : child ≠ initTid := by
    rintro rfl
    exact h.initStarted hchild
  let started : Table := s.set child { s child with state := .runable }
  have hstarted : started.Inv := h.startOrphan hchild
  have hdone : (started.reparent child t).Inv := by
    refine hstarted.reparent ?_ hci ?_ ?_ ?_ ?_ ?_ ?_
    · intro x
      have hlinked := h.linked x child
      have htaken := h.taken x child
      grind -linarith
    · simp [started]
    · simp [started, hct.symm, hrun]
    · simp [started, hct.symm, hpc, Pc.leaving]
    · simp [started, hct.symm, hpc, Task.locked]
    · simp [started, hfresh]
    · simp [started]
  convert hdone using 1
  funext x
  simp only [Table.reparent, started, Table.set_apply]
  grind -linarith

lemma Table.Inv.signal (t : Nat) :
    (s.set t { (s t).wakeupIfWaiting with interrupted := true }).Inv := by
  have hreaped := h.reaped t
  apply h.setFlags <;> grind [Task.wakeupIfWaiting]

lemma Table.Inv.drop (hreaped : (s t).reaped = true) :
    (s.set t { s t with dropped := true }).Inv := by
  exact h.setFlags rfl rfl rfl Iff.rfl id id fun _ => h.reaped t (.inl hreaped)

lemma Table.Inv.step (hok : s.wakesParent action) (hstep : s.step action = some s') : s'.Inv := by
  have huser : ∀ t, (s t).atUser = true →
      (s t).state = .running ∧ (s t).pc = .user ∧ ∀ x, ¬ s.PendingWake t x := by
    intro t ht
    simp only [Task.atUser, Bool.and_eq_true, beq_iff_eq] at ht
    exact ⟨ht.1, ht.2, by simp [Table.PendingWake, ht.2]⟩
  cases action with
  | fork t child =>
    obtain ⟨⟨ht, hchild⟩, rfl⟩ := ite_some_none_eq_some.mp hstep
    exact h.fork (huser t ht).1 (huser t ht).2.1 hchild
  | startOrphan child =>
    obtain ⟨hchild, rfl⟩ := ite_some_none_eq_some.mp hstep
    exact h.startOrphan hchild
  | wait t qtid =>
    obtain ⟨ht, rfl⟩ := ite_some_none_eq_some.mp hstep
    exact h.setQuiet (huser t ht).1 rfl (huser t ht).2.2 (by simp)
  | exit t =>
    obtain ⟨⟨ht, hne⟩, rfl⟩ := ite_some_none_eq_some.mp hstep
    exact h.setQuiet (huser t ht).1 rfl (huser t ht).2.2 fun heq => absurd heq hne
  | advance t => exact h.advance hok hstep
  | signal t =>
    simp only [Table.step, ite_none_left_eq_some, some.injEq] at hstep
    obtain ⟨_, rfl⟩ := hstep
    exact h.signal t
  | handleSignals t =>
    obtain ⟨ht, rfl⟩ := ite_some_none_eq_some.mp hstep
    have hrun := (huser t ht).1
    exact h.setState (by simp [hrun]) (.inl hrun)
  | dispatch t =>
    obtain ⟨ht, rfl⟩ := ite_some_none_eq_some.mp hstep
    exact h.setState (by simp [ht]) (.inl rfl)
  | preempt t =>
    obtain ⟨⟨ht, _⟩, rfl⟩ := ite_some_none_eq_some.mp hstep
    exact h.setState (by simp [ht]) (.inr rfl)
  | drop t =>
    obtain ⟨ht, rfl⟩ := ite_some_none_eq_some.mp hstep
    exact h.drop ht

end

/-- Along every run in which an exiting task that has been handed to the init
task after it read its parent is not missed by that parent, no sleeping parent
loses a zombie child. -/
theorem noLostChild_of_wakesParent (s : Table)
    (hs : machine.ReachableUnder wakesParent s) : s.NoLostChild := by
  have hinv : s.Inv := by
    refine hs.invariant (P := Table.Inv) ?_ ?_
    · rintro _ rfl
      exact boot_inv
    · intro before action after hbefore hok hstep
      exact hbefore.step hok hstep
  exact fun t hsleep child hchild hzombie => hinv.reported t child hchild hzombie (.inl hsleep)

/-- The parent that was read is still the parent: the usual way to meet
`Table.wakesParent`, and a computable one. -/
def Table.keepsParent (s : Table) : Action → Bool
  | .advance t =>
    match (s t).pc with
    | .exitFinish parentref => (s t).parent == some parentref
    | _ => true
  | _ => true

lemma Table.wakesParent_of_keepsParent
    (h : s.keepsParent action = true) : s.wakesParent action := by
  cases action with
  | advance t =>
    intro parentref parent hpc hparent
    simp only [keepsParent, hpc, hparent, beq_iff_eq, some.injEq] at h
    exact .inl h
  | _ => trivial

def reportedTrace : List Action :=
  [.dispatch initTid, .fork initTid 1, .wait initTid none, .advance initTid,
    .advance initTid, .advance initTid, .dispatch 1, .exit 1, .advance 1,
    .advance 1, .advance 1, .advance 1]

theorem reportedTrace_noLostChild :
    ∃ s, machine.runUnder (fun s action => s.keepsParent action = true)
        boot reportedTrace = some s ∧
      (s 1).state = .zombie ∧ (s initTid).state = .runable ∧ s.NoLostChild := by
  have hrun : machine.runUnder (fun s action => s.keepsParent action = true)
      boot reportedTrace = some _ := rfl
  refine ⟨_, hrun, rfl, rfl, ?_⟩
  apply noLostChild_of_wakesParent
  have hstart : machine.ReachableUnder
      (fun s action => s.keepsParent action = true) boot := .start rfl
  exact (hstart.runUnder hrun).mono fun _ _ => wakesParent_of_keepsParent

/-- Task `2` reads its parent `1`, which then exits and hands it to the init
task before it turns into a zombie.  The init task reaps `1`, looks at `2`
once more and sleeps; then `2` wakes the zombie `1` instead of it. -/
def lostTrace : List Action :=
  [.dispatch initTid, .fork initTid 1, .wait initTid none, .advance initTid,
    .advance initTid, .advance initTid, .dispatch 1, .fork 1 2, .dispatch 2,
    .exit 2, .advance 2, .advance 2, .advance 2,
    .exit 1, .advance 1, .advance 1, .advance 1, .advance 1, .advance 1,
    .advance 1, .dispatch initTid, .advance initTid, .advance initTid,
    .advance initTid, .advance initTid, .wait initTid none, .advance initTid,
    .advance initTid, .advance initTid, .advance 2]

def lostTable : Table := fun t =>
  if t = 2 then { Task.new with state := .zombie, parent := some initTid, pc := .exited }
  else if t = 1 then { Task.new with state := .zombie, reaped := true, pc := .exited }
  else if t = initTid then
    { Task.new with state := .waitting, children := [2], pc := .waitSleep none }
  else Task.new

lemma run_lostTrace : machine.run boot lostTrace = some lostTable := by
  have hrun : machine.run boot lostTrace = some _ := rfl
  rw [hrun]
  congr 1
  funext t
  by_cases h2 : t = 2
  · subst h2
    rfl
  by_cases h1 : t = 1
  · subst h1
    rfl
  · by_cases hinit : t = initTid
    · subst hinit
      rfl
    · simp [lostTable, Table.set, Table.boot, Table.waitGiveUp, Table.reparent, h1, h2, hinit]

theorem not_noLostChild_of_exit_races : ¬ ∀ s, machine.Reachable s → s.NoLostChild := by
  intro hall
  have hstart : machine.Reachable boot := .start rfl
  have hlost := hall lostTable (hstart.run run_lostTrace) initTid ⟨rfl, rfl⟩ 2 (by decide) rfl
  obtain ⟨e, he⟩ := hlost
  unfold Table.PendingWake lostTable at he
  by_cases h2 : e = 2
  · simp [h2] at he
  by_cases h1 : e = 1
  · simp [h1] at he
  · by_cases hinit : e = initTid
    · simp [hinit, initTid] at he
    · simp [h1, h2, hinit, Task.new] at he

end Redwing.TaskTree
