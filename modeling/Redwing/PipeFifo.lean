/-
A pipe whose locks exclude each other is a queue of bytes: in every run reads
get the bytes of the writes in order, nobody sleeps while there is something to
do and no wake-up is under way, and after the write end is gone reads get what
is left and then nothing.
-/
import Redwing.PipeLocks

namespace Redwing.Pipes

open Function List

/-! ### The bytes -/

lemma drainVecdequeToSlice_eq (split : Nat) (src dst : List UInt8) :
    drainVecdequeToSlice split src dst = (min src.length dst.length,
        src.take (min src.length dst.length) ++ dst.drop (min src.length dst.length),
        src.drop (min src.length dst.length)) := by
  rw [drainVecdequeToSlice]
  generalize hn : min src.length dst.length = n
  have hcopyA : min (src.take split).length n = min split n := by
    rw [length_take]
    omega
  have htake : (src.take split).take (min split n) = src.take (min split n) := by
    rw [take_take, Nat.min_eq_left (Nat.min_le_left ..)]
  simp only [hcopyA, htake, Prod.mk.injEq, true_and, and_true]
  by_cases hsplit : split < n
  · -- the second slice gives the rest
    have hmin : min split n = split := by omega
    have hlen : (src.take split).length = split := by
      rw [length_take]
      omega
    have hdst : (src.take split ++ dst.drop split).drop n = dst.drop n := by
      have hnil : (src.take split).drop n = [] := drop_eq_nil_of_le (by omega)
      rw [drop_append, hnil, hlen, drop_drop, nil_append]
      congr 1
      omega
    have hsrc : src.take split ++ (src.drop split).take (n - split) =
        src.take n := by
      rw [← take_add]
      congr 1
      omega
    rw [hmin, if_pos (by omega), take_left' hlen, hsrc, hdst]
  · have hmin : min split n = n := by omega
    rw [hmin, if_neg (by omega)]
/-- Having gone through a round, with `rest` still to move. -/
def Pc.Stops : Pc → List UInt8 → Prop
  | .signal, rest | .check, rest => rest ≠ []
  | .lockQueue, _ | .recheck, _ | .dropBuffer, _ => True
  | _, _ => False

lemma Pc.Stops.holdsBuffer {pc : Pc} {rest : List UInt8}
    (h : pc.Stops rest) : pc.holdsBuffer = true := by
  cases pc with
  | signal | check | lockQueue | recheck | dropBuffer => rfl
  | idle | lockBuffer | transfer | sleep | asleep | finished => exact h.elim

lemma Pc.Stops.active {pc : Pc} {rest : List UInt8} (h : pc.Stops rest) : pc.active = true := by
  cases pc with
  | signal | check | lockQueue | recheck | dropBuffer => rfl
  | idle | lockBuffer | transfer | sleep | asleep | finished => exact h.elim

namespace Pipe

variable (s : Pipe) (t : Nat)

/-- The number of bytes that the next round of a read moves. -/
def readable : Nat := min s.buffer.length (s.tasks t).call.buf.length

def afterRead : Task where
  pc := if s.readable t ≠ 0 then .signal else .check
  call :=
    { (s.tasks t).call with
      done := (s.tasks t).call.done ++ s.buffer.take (s.readable t)
      buf := (s.tasks t).call.buf.drop (s.readable t) }

lemma readRound_eq (split : Nat) : s.readRound t split =
    { s.setTask t (s.afterRead t) with
      buffer := s.buffer.drop (s.readable t)
      popped := s.popped ++ s.buffer.take (s.readable t) } := by
  have hlen : (s.buffer.take (s.readable t)).length = s.readable t := by
    rw [length_take, readable]
    omega
  simp only [readRound, drainVecdequeToSlice_eq, afterRead]
  rw [← readable, take_left' hlen, drop_left' hlen]

/-- The number of bytes that the next round of a write moves. -/
def writable : Nat := min (s.tasks t).call.buf.length (s.capacity - s.buffer.length)

def afterWrite : Task where
  pc := if s.writable t ≠ 0 then .signal else .check
  call :=
    { (s.tasks t).call with
      done := (s.tasks t).call.done ++ (s.tasks t).call.buf.take (s.writable t)
      buf := (s.tasks t).call.buf.drop (s.writable t) }

lemma writeRound_eq : s.writeRound t =
    { s.setTask t (s.afterWrite t) with
      buffer := s.buffer ++ (s.tasks t).call.buf.take (s.writable t)
      pushed := s.pushed ++ (s.tasks t).call.buf.take (s.writable t) } :=
  rfl

lemma moves_readRound (split : Nat) : Moves s (s.readRound t split) t (s.afterRead t).pc := by
  rw [readRound_eq]
  exact moves_setTask rfl rfl

lemma moves_writeRound : Moves s (s.writeRound t) t (s.afterWrite t).pc := by
  rw [writeRound_eq]
  exact moves_setTask rfl rfl

def Stuck : End → Prop
  | .read => s.buffer = []
  | .write => s.capacity ≤ s.buffer.length

/-- The task has moved what it could, and the rest of its slice is left. -/
def Stopped : Prop := (s.tasks t).pc.Stops (s.tasks t).call.buf

end Pipe

structure Data (s : Pipe) : Prop where
  order : s.popped ++ s.buffer = s.pushed
  bounded : s.buffer.length ≤ s.capacity
  stopped : ∀ t, s.Stopped t → s.Stuck (s.side t)

namespace Data

open Pipe

variable {s s' : Pipe} {t : Nat} {pc : Pc}

lemma keep (h : Data s) (hbytes : s'.buffer = s.buffer ∧ s'.capacity = s.capacity ∧
      s'.pushed = s.pushed ∧ s'.popped = s.popped)
    (hstopped : ∀ u, s'.Stopped u → s.Stopped u ∧ s'.side u = s.side u) :
    Data s' := by
  obtain ⟨hbuffer, hcapacity, hpushed, hpopped⟩ := hbytes
  refine ⟨?_, ?_, ?_⟩
  · rw [hbuffer, hpushed, hpopped, h.order]
  · rw [hbuffer, hcapacity]
    exact h.bounded
  intro u hu
  obtain ⟨hold, hside⟩ := hstopped u hu
  have hstuck := h.stopped u hold
  rw [hside]
  cases hs : s.side u with
  | read =>
    rw [hs] at hstuck
    exact hbuffer.trans hstuck
  | write =>
    rw [hs] at hstuck
    rw [Stuck, hbuffer, hcapacity]
    exact hstuck

lemma transfer (hl : Locked s) (hpc : (s.tasks t).pc = .transfer) (hm : Moves s s' t pc)
    (horder : s'.popped ++ s'.buffer = s'.pushed) (hbounded : s'.buffer.length ≤ s'.capacity)
    (hself : s'.Stopped t → s'.Stuck (s'.side t)) : Data s' := by
  refine ⟨horder, hbounded, ?_⟩
  intro u hu
  by_cases hut : u = t
  · subst hut
    exact hself hu
  have hold : s.Stopped u := by rwa [Stopped, hm.others u hut] at hu
  have hholds : (s.tasks t).pc.holdsBuffer = true := by
    rw [hpc]
    rfl
  have hsame := hl.buffer.sole hold.holdsBuffer hholds
  exact absurd hsame hut

lemma rest_of_stopped (h : s.Stopped t)
    (hpc : (s.tasks t).pc = .signal ∨ (s.tasks t).pc = .check) : (s.tasks t).call.buf ≠ [] := by
  rw [Stopped] at h
  rcases hpc with hpc | hpc <;> rwa [hpc] at h

lemma read (hl : Locked s) (h : Data s) (split : Nat) (hpc : (s.tasks t).pc = .transfer)
    (hside : s.side t = .read) : Data (s.readRound t split) := by
  have hm := s.moves_readRound t split
  rw [readRound_eq] at hm ⊢
  apply transfer hl hpc hm
  · simp [append_assoc, take_append_drop, h.order, setTask]
  · simp only [length_drop, setTask]
    exact Nat.le_trans (Nat.sub_le ..) h.bounded
  intro hstopped
  have hrest := rest_of_stopped hstopped (by rw [hm.pc]; exact ite_eq_or_eq ..)
  rw [hm.side, hside]
  simp only [setTask, update_self, afterRead, ne_eq, drop_eq_nil_iff, Nat.not_le] at hrest
  apply drop_eq_nil_of_le
  rw [readable] at hrest ⊢
  omega

lemma write (hl : Locked s) (h : Data s) (hpc : (s.tasks t).pc = .transfer)
    (hside : s.side t = .write) : Data (s.writeRound t) := by
  have hm := s.moves_writeRound t
  have hbounded := h.bounded
  have hlen : ((s.tasks t).call.buf.take (s.writable t)).length =
      s.writable t := by
    rw [length_take, writable]
    omega
  rw [writeRound_eq] at hm ⊢
  apply transfer hl hpc hm
  · simp [← append_assoc, h.order, setTask]
  · simp only [length_append, hlen, setTask]
    rw [writable]
    omega
  intro hstopped
  have hrest := rest_of_stopped hstopped (by rw [hm.pc]; exact ite_eq_or_eq ..)
  rw [hm.side, hside]
  simp only [setTask, update_self, afterWrite, ne_eq, drop_eq_nil_iff, Nat.not_le] at hrest
  simp only [Stuck, length_append, hlen, setTask]
  rw [writable] at hrest ⊢
  omega

lemma goto (h : Data s) (htasks : s'.tasks = (s.goto t pc).tasks)
    (hbytes : s'.buffer = s.buffer ∧ s'.capacity = s.capacity ∧
      s'.pushed = s.pushed ∧ s'.popped = s.popped)
    (hself : pc.Stops (s.tasks t).call.buf →
      (s.tasks t).pc.Stops (s.tasks t).call.buf) : Data s' := by
  have hm : Moves s s' t pc := moves_goto htasks
  apply h.keep hbytes
  intro u hu
  refine ⟨?_, hm.side_eq u⟩
  by_cases hut : u = t
  · subst hut
    have hcall : (s'.tasks u).call = (s.tasks u).call := by
      simp [htasks, Pipe.goto, setTask, update_self]
    rw [Stopped, hm.pc, hcall] at hu
    exact hself hu
  · rwa [Stopped, hm.others u hut] at hu

lemma signalAll (h : Data s) (q : End) : Data (s.signalAll q) := by
  refine h.keep ⟨rfl, rfl, rfl, rfl⟩ ?_
  intro u hu
  refine ⟨?_, Locked.signalAll_side q u⟩
  by_cases hmem : u ∈ s.queue q
  · simp only [Stopped, Pipe.signalAll, hmem, ↓reduceIte] at hu
    exact hu.elim
  · simpa only [Stopped, Pipe.signalAll, hmem, ↓reduceIte] using hu

lemma step (hl : Locked s) (h : Data s) (hstep : Step s s') : Data s' := by
  cases hstep with
  | @start t side buf idle live =>
    refine h.keep ⟨rfl, rfl, rfl, rfl⟩ ?_
    intro u hu
    by_cases hut : u = t
    · simp only [Stopped, setTask, hut, update_self] at hu
      exact hu.elim
    · simp only [Stopped, Pipe.side, setTask, update_of_ne hut] at hu ⊢
      exact ⟨hu, trivial⟩
  | refuse => exact h
  | lockBuffer | finish | giveUp | dropBuffer | sleep =>
    exact h.goto rfl ⟨rfl, rfl, rfl, rfl⟩ False.elim
  | read split pc side => exact read hl h split pc side
  | write pc side => exact write hl h pc side
  | @signal t pc free =>
    have hstays := hl.signalAll_tasks_of_ne (s.side t).other
      (by rw [pc]; exact Pc.noConfusion : (s.tasks t).pc ≠ .asleep)
    apply (h.signalAll _).goto rfl ⟨rfl, rfl, rfl, rfl⟩
    rw [hstays, pc]
    exact id
  | goOn pc rest opened =>
    refine h.goto rfl ⟨rfl, rfl, rfl, rfl⟩ ?_
    rw [pc]
    exact fun _ => rest
  | lockQueue pc | commit pc =>
    refine h.goto rfl ⟨rfl, rfl, rfl, rfl⟩ ?_
    rw [pc]
    exact id
  | dropEnd | closeLate | close => exact ⟨h.order, h.bounded, h.stopped⟩
  | signalReaders signal free =>
    have hdata := h.signalAll .read
    exact ⟨hdata.order, hdata.bounded, hdata.stopped⟩
  | signalWriters signal free =>
    have hdata := h.signalAll .write
    exact ⟨hdata.order, hdata.bounded, hdata.stopped⟩

end Data

/-! ### Wake-ups -/

def Pc.sleeping : Pc → Bool
  | .sleep | .asleep => true
  | _ => false

/-- Nothing but a wake-up keeps the task from sleeping. -/
def Pc.committed : Pc → Bool
  | .dropBuffer | .sleep | .asleep => true
  | _ => false

lemma Pc.committed_of_sleeping {pc : Pc} (h : pc.sleeping = true) : pc.committed = true := by
  cases pc with
  | sleep | asleep => rfl
  | idle | lockBuffer | transfer | signal | check | lockQueue | recheck
  | dropBuffer | finished => cases h

section

variable {s : Pipe}

lemma Pipe.signalAll_of_committed (hu : ((s.signalAll q).tasks u).pc.committed = true) :
    u ∉ s.queue q ∧ (s.tasks u).pc.committed = true := by
  by_cases hmem : u ∈ s.queue q
  · simp only [signalAll, hmem, ↓reduceIte] at hu
    cases hu
  · simp only [signalAll, hmem, ↓reduceIte] at hu
    exact ⟨hmem, hu⟩

lemma Locked.side_ne_of_signalAll (hl : Locked s) (hfree : s.queueLock q = none)
    (hu : ((s.signalAll q).tasks u).pc.committed = true) : s.side u ≠ q := by
  obtain ⟨hnot, hcommitted⟩ := Pipe.signalAll_of_committed hu
  intro hside
  cases hpc : (s.tasks u).pc with
  | asleep => exact hnot ((hl.queue u q).mpr ⟨hpc, hside⟩)
  | sleep | dropBuffer =>
    apply (hl.queueLock q).not_held hfree (t := u)
    rw [hpc]
    exact ⟨rfl, hside⟩
  | idle | lockBuffer | transfer | signal | check | lockQueue | recheck
  | finished =>
    rw [hpc] at hcommitted
    cases hcommitted

end

/-- Whoever sleeps without need is about to be woken up by the other side. -/
def Sleepers (s : Pipe) : Prop :=
  ∀ t, (s.tasks t).pc.sleeping = true → ¬ s.Stuck (s.side t) →
    ∃ p, (s.tasks p).pc = .signal ∧ s.side p = (s.side t).other

namespace Sleepers

open Pipe

variable {s s' : Pipe} {t : Nat} {pc : Pc}

lemma stuck_congr (hbuffer : s'.buffer = s.buffer) (hcapacity : s'.capacity = s.capacity) :
    s'.Stuck q ↔ s.Stuck q := by
  cases q with
  | read => rw [Stuck, Stuck, hbuffer]
  | write => rw [Stuck, Stuck, hbuffer, hcapacity]

lemma move (h : Sleepers s) (hm : Moves s s' t pc) (hbuffer : s'.buffer = s.buffer)
    (hcapacity : s'.capacity = s.capacity) (hpc : (s.tasks t).pc = old) (hold : old ≠ .signal)
    (hnew : pc.sleeping = true → old.sleeping = true ∨ s.Stuck (s.side t)) : Sleepers s' := by
  intro u hu hfree
  rw [hm.side_eq, stuck_congr hbuffer hcapacity] at hfree
  have hbefore : (s.tasks u).pc.sleeping = true := by
    by_cases hut : u = t
    · subst hut
      rw [hm.pc] at hu
      rw [hpc]
      exact (hnew hu).resolve_right hfree
    · rwa [hm.others u hut] at hu
  obtain ⟨p, hp, hside⟩ := h u hbefore hfree
  have hpt : p ≠ t := by
    rintro rfl
    exact hold (hpc.symm.trans hp)
  refine ⟨p, ?_, ?_⟩
  · rw [hm.others p hpt, hp]
  · rw [hm.side_eq, hm.side_eq, hside]

lemma signalAll (hl : Locked s) (h : Sleepers s) (q : End) : Sleepers (s.signalAll q) := by
  intro u hu hfree
  rw [Locked.signalAll_side] at hfree ⊢
  have hkept : (s.signalAll q).tasks u = s.tasks u := by
    have hnot := (signalAll_of_committed (Pc.committed_of_sleeping hu)).1
    simp [Pipe.signalAll, hnot]
  rw [hkept] at hu
  obtain ⟨p, hp, hside⟩ := h u hu hfree
  refine ⟨p, ?_, ?_⟩
  · rw [hl.signalAll_tasks_of_ne q (by rw [hp]; exact Pc.noConfusion), hp]
  · rw [Locked.signalAll_side, hside]

lemma signal (hl : Locked s) (h : Sleepers s) (hpc : (s.tasks t).pc = .signal)
    (hfree : s.queueLock (s.side t).other = none) :
    Sleepers ((s.signalAll (s.side t).other).goto t .check) := by
  have hm : Moves (s.signalAll (s.side t).other)
      ((s.signalAll (s.side t).other).goto t .check) t .check := moves_goto rfl
  intro u hu hstuck
  have hut : u ≠ t := by
    rintro rfl
    rw [hm.pc] at hu
    cases hu
  rw [hm.others u hut] at hu
  rw [hm.side_eq, Locked.signalAll_side] at hstuck
  have hcommitted := Pc.committed_of_sleeping hu
  have hside := hl.side_ne_of_signalAll hfree hcommitted
  have hkept : (s.signalAll (s.side t).other).tasks u = s.tasks u := by
    have hnot := (signalAll_of_committed hcommitted).1
    simp [Pipe.signalAll, hnot]
  rw [hkept] at hu
  obtain ⟨p, hp, hpside⟩ := h u hu hstuck
  -- the one who signals is `t`, but for the other side
  have hpt : p = t := by
    apply hl.buffer.sole
    · rw [hp]
      rfl
    · rw [hpc]
      rfl
  rw [hpt] at hpside
  exact absurd (hpside ▸ (End.other_other _).symm) hside

/-- While a task makes a round nobody signals, so all who sleep have to. -/
lemma transfer (h : Sleepers s) (hl : Locked s) (hpc : (s.tasks t).pc = .transfer)
    (hm : Moves s s' t pc) (hawake : pc.sleeping = false)
    (hsame : s.Stuck (s.side t) → s'.Stuck (s.side t))
    (hother : s.Stuck (s.side t).other → s'.Stuck (s.side t).other ∨ pc = .signal) :
    Sleepers s' := by
  intro u hu hfree
  have hut : u ≠ t := by
    rintro rfl
    rw [hm.pc, hawake] at hu
    cases hu
  rw [hm.others u hut] at hu
  rw [hm.side_eq] at hfree
  have hstuck : s.Stuck (s.side u) := by
    by_contra hnot
    obtain ⟨p, hp, -⟩ := h u hu hnot
    have hpt : p = t := by
      apply hl.buffer.sole
      · rw [hp]
        rfl
      · rw [hpc]
        rfl
    rw [hpt, hpc] at hp
    cases hp
  by_cases hside : s.side u = s.side t
  · rw [hside] at hstuck hfree
    exact absurd (hsame hstuck) hfree
  have hopp := End.eq_other_of_ne hside
  rw [hopp] at hstuck hfree
  have hsignal := (hother hstuck).resolve_left hfree
  refine ⟨t, hm.pc.trans hsignal, ?_⟩
  rw [hm.side_eq, hm.side_eq, hopp, End.other_other]

lemma awake_of_moved : (if n ≠ 0 then Pc.signal else .check).sleeping = false := by split <;> rfl

lemma read (hl : Locked s) (h : Sleepers s) (split : Nat) (hpc : (s.tasks t).pc = .transfer)
    (hside : s.side t = .read) : Sleepers (s.readRound t split) := by
  have hm := s.moves_readRound t split
  apply h.transfer hl hpc hm awake_of_moved
  · rw [hside, readRound_eq]
    intro hempty
    exact drop_eq_nil_of_le (by rw [show s.buffer = [] from hempty]; simp)
  rw [hside, readRound_eq]
  intro hfull
  by_cases hmoved : s.readable t = 0
  · left
    rw [hmoved]
    exact hfull
  · exact .inr (if_pos hmoved)

lemma write (hl : Locked s) (h : Sleepers s) (hpc : (s.tasks t).pc = .transfer)
    (hside : s.side t = .write) : Sleepers (s.writeRound t) := by
  have hm := s.moves_writeRound t
  apply h.transfer hl hpc hm awake_of_moved
  · rw [hside, writeRound_eq]
    intro hfull
    simp only [Stuck, setTask, length_append] at hfull ⊢
    omega
  rw [hside, writeRound_eq]
  intro hempty
  by_cases hmoved : s.writable t = 0
  · left
    rw [hmoved]
    exact (append_nil _).trans hempty
  · exact .inr (if_pos hmoved)

lemma start (h : Sleepers s) {side : End} {buf : List UInt8}
    (idle : (s.tasks t).pc.active = false) : Sleepers
      { s.setTask t { pc := .lockBuffer, call := { side, done := [], buf } }
        with inCall := update s.inCall side (t :: s.inCall side) } := by
  intro u hu hfree
  have hut : u ≠ t := by
    rintro rfl
    simp only [setTask, update_self] at hu
    cases hu
  simp only [setTask, Pipe.side, update_of_ne hut] at hu hfree ⊢
  obtain ⟨p, hp, hside⟩ := h u hu hfree
  have hpt : p ≠ t := by
    rintro rfl
    rw [hp] at idle
    cases idle
  exact ⟨p, by rw [update_of_ne hpt, hp],
    by rw [update_of_ne hpt]; exact hside⟩

lemma step (hl : Locked s) (hd : Data s) (h : Sleepers s) (hstep : Step s s') : Sleepers s' := by
  cases hstep with
  | start idle live => exact h.start idle
  | refuse | dropEnd | closeLate | close => exact h
  | lockBuffer pc | finish pc | goOn pc | lockQueue pc | giveUp pc
  | commit pc => exact h.move (moves_goto rfl) rfl rfl pc Pc.noConfusion nofun
  | read split pc side => exact read hl h split pc side
  | write pc side => exact write hl h pc side
  | signal pc free => exact signal hl h pc free
  | @dropBuffer t pc =>
    have hstopped : s.Stopped t := by
      rw [Stopped, pc]
      exact trivial
    exact h.move (moves_goto rfl) rfl rfl pc Pc.noConfusion fun _ => .inr (hd.stopped t hstopped)
  | sleep pc => exact h.move (moves_goto rfl) rfl rfl pc Pc.noConfusion fun _ => .inl rfl
  | signalReaders signal free => exact signalAll hl h .read
  | signalWriters signal free => exact signalAll hl h .write

end Sleepers

/-! ### Closing -/

def Closing.pending : Closing → End → Bool
  | .signal .read, _ => true
  | .signal .write, .write => true
  | _, _ => false

/-- Whoever has found the pipe open before going to sleep is woken up by the
close that comes after. -/
def Closes (s : Pipe) : Prop :=
  ∀ t, (s.tasks t).pc.committed = true → s.isClosed = true →
    ∃ e, (s.ends e).pending (s.side t) = true

namespace Closes

open Pipe

variable {s s' : Pipe} {t : Nat} {pc : Pc}

lemma move (h : Closes s) (hm : Moves s s' t pc) (hclosed : s'.isClosed = s.isClosed)
    (hends : s'.ends = s.ends) (hpc : (s.tasks t).pc = old)
    (hnew : pc.committed = true → old.committed = true ∨ s.isClosed = false) : Closes s' := by
  intro u hu hclose
  rw [hclosed] at hclose
  rw [hends, hm.side_eq]
  refine h u ?_ hclose
  by_cases hut : u = t
  · subst hut
    rw [hm.pc] at hu
    rw [hpc]
    refine (hnew hu).resolve_right ?_
    rw [hclose]
    exact Bool.noConfusion
  · rwa [hm.others u hut] at hu

lemma signalAll (h : Closes s) (q : End) : Closes (s.signalAll q) := by
  intro u hu hclose
  rw [Locked.signalAll_side]
  exact h u (signalAll_of_committed hu).2 hclose

lemma setEnd (h : Closes s) (closing : Closing) (hold : ∀ q, (s.ends e).pending q = false) :
    Closes { s with ends := update s.ends e closing } := by
  intro u hu hclose
  obtain ⟨e', he'⟩ := h u hu hclose
  have hne : e' ≠ e := by
    rintro rfl
    rw [hold] at he'
    cases he'
  refine ⟨e', ?_⟩
  simp only [update_of_ne hne]
  exact he'

lemma not_committed_of_moved : (if n ≠ 0 then Pc.signal else .check).committed = false := by
  split <;> rfl

lemma step (hl : Locked s) (h : Closes s) (hstep : Step s s') : Closes s' := by
  cases hstep with
  | @start t side buf idle live =>
    intro u hu hclose
    have hut : u ≠ t := by
      rintro rfl
      simp only [setTask, update_self] at hu
      cases hu
    simp only [setTask, Pipe.side, update_of_ne hut] at hu ⊢
    exact h u hu hclose
  | refuse => exact h
  | lockBuffer pc | finish pc | goOn pc | lockQueue pc | giveUp pc =>
    exact h.move (moves_goto rfl) rfl rfl pc (fun h => by cases h)
  | @read t split pc side =>
    refine h.move (s.moves_readRound t split) rfl rfl pc fun hnew => ?_
    exact absurd hnew (Bool.eq_false_iff.mp not_committed_of_moved)
  | @write t pc side =>
    refine h.move (s.moves_writeRound t) rfl rfl pc fun hnew => ?_
    exact absurd hnew (Bool.eq_false_iff.mp not_committed_of_moved)
  | @signal t pc free =>
    have hstays := hl.signalAll_tasks_of_ne (s.side t).other
      (by rw [pc]; exact Pc.noConfusion : (s.tasks t).pc ≠ .asleep)
    exact (h.signalAll _).move (moves_goto rfl) rfl rfl ((congrArg Task.pc hstays).trans pc)
      (fun h => by cases h)
  | commit pc opened => exact h.move (moves_goto rfl) rfl rfl pc fun _ => .inr opened
  | dropBuffer pc => exact h.move (moves_goto rfl) rfl rfl pc fun _ => .inl rfl
  | sleep pc => exact h.move (moves_goto rfl) rfl rfl pc fun _ => .inl rfl
  | dropEnd live | closeLate live =>
    apply h.setEnd
    intro q
    rw [live]
    rfl
  | @close e swap opened =>
    intro u _ _
    refine ⟨e, ?_⟩
    simp only [update_self]
    rfl
  | @signalReaders e signal free =>
    intro u hu hclose
    have hside := End.eq_other_of_ne (hl.side_ne_of_signalAll free hu)
    refine ⟨e, ?_⟩
    have hsame := Locked.signalAll_side (s := s) .read u
    simp only [update_self]
    exact (congrArg _ (hsame.trans hside)).trans rfl
  | @signalWriters e signal free =>
    intro u hu hclose
    have hside := End.eq_other_of_ne (hl.side_ne_of_signalAll free hu)
    obtain ⟨e', he'⟩ := h.signalAll .write u hu hclose
    have hsame := Locked.signalAll_side (s := s) .write u
    have hne : e' ≠ e := by
      rintro rfl
      rw [hsame, hside] at he'
      rw [show (s.signalAll .write).ends e' = s.ends e' from rfl, signal] at he'
      cases he'
    refine ⟨e', ?_⟩
    simp only [update_of_ne hne]
    exact he'

end Closes

/-! ### The end of the data -/

namespace Step

open Pipe

variable {s s' : Pipe}

lemma past (hstep : Step s s') (hq : (s.ends q).past = true) : (s'.ends q).past = true := by
  have hset : ∀ e (closing : Closing), (s.ends e).past = false ∨ closing.past = true →
      (update s.ends e closing q).past = true := by
    intro e closing hor
    by_cases hqe : q = e
    · subst hqe
      rw [update_self]
      exact hor.resolve_left (by rw [hq]; exact Bool.noConfusion)
    · rw [update_of_ne hqe, hq]
  cases hstep with
  | dropEnd live unused =>
    apply hset
    rw [live]
    exact .inl rfl
  | closeLate | close | signalReaders | signalWriters => exact hset _ _ (.inr rfl)
  | start | refuse | lockBuffer | read | write | signal | finish | goOn
  | lockQueue | giveUp | commit | dropBuffer | sleep => exact hq

lemma pushed_eq (hl : Locked s) (hstep : Step s s')
    (hgone : (s.ends .write).past = true) : s'.pushed = s.pushed := by
  cases hstep with
  | @write t pc side =>
    have hactive : (s.tasks t).pc.active = true := by
      rw [pc]
      rfl
    have hlive := hl.live_of_active hactive
    rw [side] at hlive
    rw [hlive] at hgone
    cases hgone
  | read split pc side => rw [readRound_eq]; rfl
  | start | refuse | lockBuffer | signal | finish | goOn | lockQueue | giveUp
  | commit | dropBuffer | sleep | dropEnd | closeLate | close | signalReaders
  | signalWriters => rfl

lemma popped_eq (hstep : Step s s') (hempty : s.buffer = []) : s'.popped = s.popped := by
  cases hstep with
  | read split pc side =>
    rw [readRound_eq]
    simp [hempty]
  | start | refuse | lockBuffer | write | signal | finish | goOn | lockQueue
  | giveUp | commit | dropBuffer | sleep | dropEnd | closeLate | close
  | signalReaders | signalWriters => rfl

end Step

def ClosedByEnd (s : Pipe) : Prop := s.isClosed = true ↔ ∃ e, (s.ends e).past = true

lemma ClosedByEnd.step (h : ClosedByEnd s) (hstep : Step s s') : ClosedByEnd s' := by
  have hset : ∀ e (closing : Closing), closing.past = true →
      ∃ e', (update s.ends e closing e').past = true := by
    intro e closing hpast
    exact ⟨e, by rw [update_self, hpast]⟩
  cases hstep with
  | @dropEnd e live unused =>
    refine h.trans ⟨?_, ?_⟩
    · rintro ⟨e', he'⟩
      exact ⟨e', Step.past (.dropEnd live unused) he'⟩
    rintro ⟨e', he'⟩
    refine ⟨e', ?_⟩
    by_cases hee : e' = e
    · simp only [hee, update_self] at he'
      cases he'
    · simpa only [update_of_ne hee] using he'
  | closeLate swap closed => exact iff_of_true closed (hset _ _ rfl)
  | close swap opened => exact iff_of_true rfl (hset _ _ rfl)
  | @signalReaders e signal | @signalWriters e signal =>
    have hclosed := h.mpr ⟨e, by rw [signal]; rfl⟩
    exact iff_of_true hclosed (hset _ _ rfl)
  | start | refuse | lockBuffer | read | write | signal | finish | goOn
  | lockQueue | giveUp | commit | dropBuffer | sleep => exact h

/-- A read that has returned with a part of its slice unfilled. -/
structure ShortRead (s : Pipe) (t : Nat) : Prop where
  pc : (s.tasks t).pc = .finished
  side : s.side t = .read
  rest : (s.tasks t).call.buf ≠ []

def ShortReads (s : Pipe) : Prop := ∀ t, ShortRead s t → (s.ends .write).past = true ∧ s.buffer = []

namespace ShortRead

open Pipe

variable {s s' : Pipe} {t : Nat} {pc : Pc}

lemma of_moves (h : ShortRead s' u) (hm : Moves s s' t pc)
    (hne : pc ≠ .finished) : ShortRead s u := by
  have hut : u ≠ t := by
    rintro rfl
    exact hne (hm.pc.symm.trans h.pc)
  have htask := hm.others u hut
  exact ⟨htask ▸ h.pc, hm.side_eq u ▸ h.side, htask ▸ h.rest⟩

lemma of_signalAll (h : ShortRead (s.signalAll q) u) : ShortRead s u := by
  have hkept : (s.signalAll q).tasks u = s.tasks u := by
    by_cases hmem : u ∈ s.queue q
    · have hpc := h.pc
      simp only [Pipe.signalAll, hmem, ↓reduceIte] at hpc
      cases hpc
    · simp [Pipe.signalAll, hmem]
  exact ⟨hkept ▸ h.pc, Locked.signalAll_side q u ▸ h.side, hkept ▸ h.rest⟩

lemma not_finished_of_moved : (if n ≠ 0 then Pc.signal else .check) ≠ .finished := by
  split <;> exact Pc.noConfusion

lemma of_finish (h : ShortRead s' u) (htasks : s'.tasks = (s.goto t .finished).tasks)
    (hclosed : (s.tasks t).call.buf = [] ∨ s.isClosed = true)
    (hstops : (s.tasks t).call.buf ≠ [] → s.Stopped t) :
    ShortRead s u ∨ (s.isClosed = true ∧ s.Stopped u ∧ s.side u = .read) := by
  have hm : Moves s s' t .finished := moves_goto htasks
  by_cases hut : u = t
  · subst hut
    have hcall : (s'.tasks u).call = (s.tasks u).call := by
      simp [htasks, Pipe.goto, setTask, update_self]
    have hrest : (s.tasks u).call.buf ≠ [] := hcall ▸ h.rest
    exact .inr ⟨hclosed.resolve_left hrest, hstops hrest, hm.side ▸ h.side⟩
  · have htask := hm.others u hut
    exact .inl ⟨htask ▸ h.pc, hm.side_eq u ▸ h.side, htask ▸ h.rest⟩

lemma of_step (h : ShortRead s' u) (hstep : Step s s') : ShortRead s u ∨
    (s.isClosed = true ∧ s.Stopped u ∧ s.side u = .read) := by
  cases hstep with
  | @start t side buf idle live =>
    have hut : u ≠ t := by
      rintro rfl
      have hpc := h.pc
      simp only [setTask, update_self] at hpc
      cases hpc
    obtain ⟨hpc, hside, hrest⟩ := h
    simp only [setTask, Pipe.side, update_of_ne hut] at hpc hside hrest
    exact .inl ⟨hpc, hside, hrest⟩
  | refuse => exact .inl h
  | lockBuffer | goOn | lockQueue | commit | dropBuffer =>
    exact .inl (h.of_moves (moves_goto rfl) Pc.noConfusion)
  | @read t split pc side =>
    exact .inl (h.of_moves (s.moves_readRound t split) not_finished_of_moved)
  | @write t pc side => exact .inl (h.of_moves (s.moves_writeRound t) not_finished_of_moved)
  | signal pc free => exact .inl (h.of_moves (moves_goto rfl) Pc.noConfusion).of_signalAll
  | finish pc done =>
    refine h.of_finish rfl done ?_
    rw [Stopped, pc]
    exact id
  | giveUp pc closed =>
    refine h.of_finish rfl (.inr closed) ?_
    rw [Stopped, pc]
    exact fun _ => trivial
  | sleep pc => exact .inl (h.of_moves (moves_goto rfl) Pc.noConfusion)
  | dropEnd | closeLate | close => exact .inl ⟨h.pc, h.side, h.rest⟩
  | signalReaders | signalWriters => exact .inl (of_signalAll ⟨h.pc, h.side, h.rest⟩)

end ShortRead

/-- Everything that holds in every state of every run. -/
structure Inv (s : Pipe) : Prop where
  locked : Locked s
  data : Data s
  sleepers : Sleepers s
  closes : Closes s
  closed : ClosedByEnd s
  short : ShortReads s

namespace Inv

open Pipe

variable {s s' : Pipe} {t : Nat}

lemma write_gone (h : Inv s) (hclosed : s.isClosed = true) (hactive : (s.tasks t).pc.active = true)
    (hside : s.side t = .read) : (s.ends .write).past = true := by
  obtain ⟨e, he⟩ := h.closed.mp hclosed
  cases e with
  | write => exact he
  | read =>
    have hlive := h.locked.live_of_active hactive
    rw [hside] at hlive
    rw [hlive] at he
    cases he

lemma buffer_eq_nil (h : Inv s) (hstep : Step s s') (hgone : (s.ends .write).past = true)
    (hempty : s.buffer = []) : s'.buffer = [] := by
  have horder := (Data.step h.locked h.data hstep).order
  rw [hstep.popped_eq hempty, hstep.pushed_eq h.locked hgone, ← h.data.order, hempty] at horder
  exact append_cancel_left horder

lemma step (h : Inv s) (hstep : Step s s') : Inv s' := by
  refine ⟨h.locked.step hstep, Data.step h.locked h.data hstep,
    Sleepers.step h.locked h.data h.sleepers hstep,
    Closes.step h.locked h.closes hstep, h.closed.step hstep, ?_⟩
  intro u hu
  have hbefore : (s.ends .write).past = true ∧ s.buffer = [] := by
    rcases hu.of_step hstep with hold | ⟨hclosed, hstopped, hside⟩
    · exact h.short u hold
    have hstuck := h.data.stopped u hstopped
    rw [hside] at hstuck
    exact ⟨h.write_gone hclosed hstopped.active hside, hstuck⟩
  exact ⟨hstep.past hbefore.1, h.buffer_eq_nil hstep hbefore.1 hbefore.2⟩

lemma start (size : Nat) : Inv (withBufferSize size) where
  locked :=
    { buffer := fun _ => iff_of_false Bool.noConfusion nofun
      queueLock := fun _ _ =>
        iff_of_false (fun h => Bool.noConfusion h.1) nofun
      queue := fun _ _ =>
        iff_of_false not_mem_nil (fun h => Pc.noConfusion h.1)
      calls := fun _ h => Bool.noConfusion h
      live := fun _ h => absurd rfl h }
  data := ⟨rfl, Nat.zero_le _, fun _ h => h.elim⟩
  sleepers := fun _ h => Bool.noConfusion h
  closes := fun _ h => Bool.noConfusion h
  closed := iff_of_false Bool.noConfusion (fun ⟨_, h⟩ => Bool.noConfusion h)
  short := fun _ h => Pc.noConfusion h.pc

lemma of_reachable (hs : machine.Reachable s) : Inv s := by
  apply hs.invariant
  · rintro start ⟨size, rfl⟩
    exact Inv.start size
  · intro before action after hinv _ hrun
    exact hinv.step (Step.of_step hrun)

end Inv

/-- The task is in its wait queue, and someone is about to wake up the queue: a
task of the other side that has moved bytes, or a close. -/
def Pipe.WakePending (s : Pipe) (t : Nat) : Prop :=
  t ∈ s.queue (s.side t) ∧ ((∃ p, (s.tasks p).pc = .signal ∧ s.side p = (s.side t).other) ∨
      ∃ e, (s.ends e).pending (s.side t) = true)

/-- What a pipe is to be: reads get the bytes of the writes in order, the buffer
keeps to its capacity, nobody sleeps while there are bytes (space) or the pipe
is closed and no wake-up is pending.  After the write end is gone, nothing is
pushed any more, a read that returns less than it was asked for has got the last
byte, from then on nothing is popped, and no read waits. -/
structure Fifo (s : Pipe) : Prop where
  order : s.popped <+: s.pushed
  bounded : s.buffer.length ≤ s.capacity
  awake : ∀ t, (s.tasks t).pc = .asleep → ¬ s.Stuck (s.side t) ∨ s.isClosed = true → s.WakePending t
  ended : (s.ends .write).past = true → s.isClosed = true ∧
    ∀ action s', step s action = some s' → s'.pushed = s.pushed ∧
      (s.buffer = [] → s'.popped = s.popped)
  short : ∀ t, ShortRead s t → (s.ends .write).past = true ∧ s.popped = s.pushed
  prompt : s.isClosed = true → ∀ t split s', (s.tasks t).pc = .check →
    step s (.task t split) = some s' → (s'.tasks t).pc = .finished

lemma Fifo.of_reachable {s : Pipe} (hs : machine.Reachable s) : Fifo s := by
  have hinv := Inv.of_reachable hs
  refine ⟨?_, hinv.data.bounded, ?_, ?_, ?_, ?_⟩
  · exact ⟨s.buffer, hinv.data.order⟩
  · intro t hpc hready
    refine ⟨(hinv.locked.queue t _).mpr ⟨hpc, rfl⟩, ?_⟩
    rcases hready with hfree | hclosed
    · exact .inl (hinv.sleepers t (by rw [hpc]; rfl) hfree)
    · exact .inr (hinv.closes t (by rw [hpc]; rfl) hclosed)
  · intro hgone
    refine ⟨hinv.closed.mpr ⟨.write, hgone⟩, ?_⟩
    intro action s' hrun
    have hstep := Step.of_step hrun
    exact ⟨hstep.pushed_eq hinv.locked hgone, hstep.popped_eq⟩
  · intro t hshort
    obtain ⟨hgone, hempty⟩ := hinv.short t hshort
    have horder := hinv.data.order
    rw [hempty, append_nil] at horder
    exact ⟨hgone, horder⟩
  intro hclosed t split s' hpc hrun
  rw [step, Pipe.stepTask, hpc] at hrun
  simp only [hclosed, or_true, ↓reduceIte, Option.some.injEq] at hrun
  rw [← hrun]
  exact (Pipe.moves_goto rfl : Pipe.Moves s (s.finish t) t .finished).pc

end Redwing.Pipes
