/-
The foreground task in `dev_read` and the calls of `receive_input`, step by step.
The reader looks for a line under the lock of the discipline and joins the wait
queue after it has released it, so the signal for a line that is completed in
between finds nobody in the queue.
-/
import Redwing.TtyReads

namespace Redwing.TtyWait

open Function Tty Option

/-- Where the foreground task is in `dev_read` with a buffer of `len` bytes. -/
inductive Reader
  | idle
  | check (len : Nat)
  | lockQueue (len : Nat)
  | sleep (len : Nat)
  | asleep (len : Nat)
  | resumed (len : Nat)
  | leave
deriving DecidableEq

def Reader.joining : Reader → Bool
  | .sleep _ => true
  | _ => false

/-- Where a call of `receive_input` is. -/
inductive Input
  | idle
  | enter (buf : List UInt8)
  | loop (newLine : Bool) (rest : List UInt8)
  | signal
  | leave
deriving DecidableEq

namespace Input

def owesSignal : Input → Bool
  | .loop newLine _ => newLine
  | .signal => true
  | _ => false

end Input

/-- The lock of the discipline is recorded while a call of `receive_input` has
it, the lock of the queue while the reader has it; the other critical sections
are single steps.  No other task uses the read buffer. -/
structure Sys where
  device : TtyDevice
  reader : Reader
  inputs : Nat → Input
  lineLock : Option Nat
  queueLocked : Bool
  queue : List Nat

def boot (tgid : Nat) : Sys where
  device := .new tgid
  reader := .idle
  inputs := fun _ => .idle
  lineLock := none
  queueLocked := false
  queue := []

inductive Act
  | read (len : Nat)
  | reader
  | interrupt
  | resume (interrupted : Bool)
  | receive (call : Nat) (buf : List UInt8)
  /-- A call goes on; `found` tells whether there is a foreground task. -/
  | input (call : Nat) (found : Bool)
deriving DecidableEq

namespace Sys

variable (s : Sys)

def tid : Nat := s.device.currentTgid

def goto (call : Nat) (i : Input) : Sys := { s with inputs := update s.inputs call i }

def wakeReader : Reader :=
  match s.reader with
  | .asleep len => if s.tid ∈ s.queue then .resumed len else .asleep len
  | other => other

def signalAll : Sys := { s with reader := s.wakeReader, queue := [] }

def stepReader : Option Sys :=
  match s.reader with
  | .check len =>
    if s.device.currentReadBuf = [] ∧ s.lineLock ≠ none then none
    else
      match s.device.devRead s.tid len with
      | (.wait, device) => some { s with device, reader := .lockQueue len }
      | (_, device) => some { s with device, reader := .idle }
  | .lockQueue len =>
    if s.queueLocked then none
    else some { s with reader := .sleep len, queueLocked := true }
  | .sleep len =>
    some { s with
      reader := .asleep len
      queueLocked := false
      queue := s.queue ++ [s.tid] }
  | .leave =>
    if s.queueLocked then none
    else some { s with reader := .idle, queue := s.queue.filter (· ≠ s.tid) }
  | .idle | .asleep _ | .resumed _ => none

def stepInput (call : Nat) (found : Bool) : Option Sys :=
  match s.inputs call with
  | .idle => none
  | .enter buf =>
    if s.lineLock = none then some { s.goto call (.loop false buf) with lineLock := some call }
    else none
  | .loop newLine [] => some (s.goto call (if newLine then .signal else .leave))
  | .loop newLine (byte :: rest) =>
    if TtyDevice.trySendSignal found byte then some (s.goto call (.loop newLine rest))
    else
      (s.device.lineDiscipline.inputByte byte).map fun r =>
        { s.goto call (.loop (newLine || r.1) rest) with
          device := { s.device with lineDiscipline := r.2 } }
  | .signal =>
    if s.queueLocked then none else some (s.signalAll.goto call .leave)
  | .leave => some { s.goto call .idle with lineLock := none }

def step : Act → Option Sys
  | .read len =>
    if s.reader = .idle then some { s with reader := .check len } else none
  | .reader => s.stepReader
  | .interrupt =>
    match s.reader with
    | .asleep len => some { s with reader := .resumed len }
    | _ => none
  | .resume interrupted =>
    match s.reader with
    | .resumed len => some { s with reader := if interrupted then .leave else .check len }
    | _ => none
  | .receive call buf =>
    if s.inputs call = .idle then some (s.goto call (.enter buf)) else none
  | .input call found => s.stepInput call found

def available : Prop := s.device.currentReadBuf ≠ [] ∨ s.device.lineDiscipline.completedLines ≠ []

instance : Decidable s.available := inferInstanceAs (Decidable (_ ∨ _))

def signalPending : Prop := ∃ call, (s.inputs call).owesSignal = true

/-- The reader sleeps though there is something to read, and nobody is going to
wake it up. -/
def Stranded : Prop := (∃ len, s.reader = .asleep len) ∧ s.available ∧ ¬s.signalPending

def joins (a : Act) : Prop := a = .reader ∧ s.reader.joining = true

/-- The reader joins the queue only if there still is nothing to read or a
signal is yet to come. -/
def JoinsInTime (a : Act) : Prop := s.joins a → s.available → s.signalPending

end Sys

def machine : Machine Sys Act where
  start s := ∃ tgid, s = boot tgid
  step := Sys.step

/-! ### What a step can do -/

/-- The steps of the system.  Those of a call are given with the point that the
call reaches. -/
inductive Step (s : Sys) : Act → Sys → Prop
  | awake {a : Act} {s' : Sys} : ¬s.joins a → (∀ len, s'.reader ≠ .asleep len) →
      s'.inputs = s.inputs → s'.lineLock = s.lineLock → Step s a s'
  | sleep {len : Nat} : s.reader = .sleep len → Step s .reader
      { s with
        reader := .asleep len
        queueLocked := false
        queue := s.queue ++ [s.tid] }
  | receive {call : Nat} {buf : List UInt8} : s.inputs call = .idle →
      Step s (.receive call buf) (s.goto call (.enter buf))
  | enter {call : Nat} {found : Bool} {buf : List UInt8} :
      s.inputs call = .enter buf → s.lineLock = none →
      Step s (.input call found)
        { s.goto call (.loop false buf) with lineLock := some call }
  | loopEnd {call : Nat} {found newLine : Bool} :
      s.inputs call = .loop newLine [] → Step s (.input call found)
        (s.goto call (if newLine then .signal else .leave))
  | signalKey {call : Nat} {found newLine : Bool} {byte : UInt8}
      {rest : List UInt8} : s.inputs call = .loop newLine (byte :: rest) →
      Step s (.input call found) (s.goto call (.loop newLine rest))
  | byte {call : Nat} {found newLine completed : Bool} {byte : UInt8}
      {rest : List UInt8} {d : LineDiscipline} :
      s.inputs call = .loop newLine (byte :: rest) →
      s.device.lineDiscipline.inputByte byte = some (completed, d) →
      Step s (.input call found)
        { s.goto call (.loop (newLine || completed) rest) with
          device := { s.device with lineDiscipline := d } }
  | signal {call : Nat} {found : Bool} : s.inputs call = .signal →
      Step s (.input call found) (s.signalAll.goto call .leave)
  | unlock {call : Nat} {found : Bool} : s.inputs call = .leave →
      Step s (.input call found) { s.goto call .idle with lineLock := none }

lemma Step.of_stepReader (h : s.stepReader = some s') : Step s .reader s' := by
  unfold Sys.stepReader at h
  cases hreader : s.reader with
  | idle | asleep | resumed => simp [hreader] at h
  | check len =>
    have hjoins : ¬s.joins .reader := by simp [Sys.joins, hreader, Reader.joining]
    simp only [hreader] at h
    split at h
    · cases h
    · split at h <;> cases h <;> exact .awake hjoins (by simp) rfl rfl
  | lockQueue | leave =>
    have hjoins : ¬s.joins .reader := by simp [Sys.joins, hreader, Reader.joining]
    simp only [hreader] at h
    split at h <;> cases h
    exact .awake hjoins (by simp) rfl rfl
  | sleep len =>
    simp only [hreader, some.injEq] at h
    exact h ▸ .sleep hreader

lemma Step.of_stepInput (h : s.stepInput call found = some s') : Step s (.input call found) s' := by
  unfold Sys.stepInput at h
  split at h
  next => cases h
  next buf hcall =>
    split at h
    next hfree => cases h; exact .enter hcall hfree
    next => cases h
  next newLine hcall => cases h; exact .loopEnd hcall
  next newLine byte rest hcall =>
    split at h
    next => cases h; exact .signalKey hcall
    next =>
      obtain ⟨⟨completed, d⟩, hbyte, rfl⟩ := map_eq_some_iff.mp h
      exact .byte hcall hbyte
  next hcall =>
    split at h
    next => cases h
    next => cases h; exact .signal hcall
  next hcall => cases h; exact .unlock hcall

lemma Step.of_step (h : s.step a = some s') : Step s a s' := by
  cases a with
  | read | interrupt =>
    simp only [Sys.step] at h
    split at h <;> cases h
    exact .awake (by simp [Sys.joins]) (by simp) rfl rfl
  | reader => exact .of_stepReader h
  | resume interrupted =>
    simp only [Sys.step] at h
    split at h <;> cases h
    refine .awake (by simp [Sys.joins]) (fun len => ?_) rfl rfl
    cases interrupted <;> simp
  | receive call buf =>
    simp only [Sys.step] at h
    split at h
    next hidle => cases h; exact .receive hidle
    next => cases h
  | input call found => exact .of_stepInput h

/-! ### Input announces its lines -/

lemma inputByte_announces {d d' : LineDiscipline} {byte : UInt8} {completed : Bool}
    (h : d.inputByte byte = some (completed, d')) (hbefore : d.completedLines = [])
    (hafter : d'.completedLines ≠ []) : completed = true := by
  unfold LineDiscipline.inputByte at h
  split at h
  · cases h
  next key d₁ hkey =>
    split at h
    · cases h
    cases h
    have hlines : d₁.completedLines = d.completedLines := by
      unfold LineDiscipline.readKey at hkey
      split at hkey
      · split at hkey
        · split at hkey <;> cases hkey <;> rfl
        · cases hkey
      · split at hkey <;> cases hkey <;> rfl
    rw [hlines, hbefore]
    exact decide_eq_true (Nat.ne_of_lt (List.length_pos_iff.mpr hafter))

/-! ### Sleeping readers -/

namespace Sys

variable {s : Sys}

lemma signalPending_goto (h : s.signalPending)
    (hkeep : (s.inputs call).owesSignal = true → i.owesSignal = true) :
    (s.goto call i).signalPending := by
  obtain ⟨other, hother⟩ := h
  refine ⟨other, ?_⟩
  by_cases heq : other = call
  · subst heq
    simpa [goto] using hkeep hother
  · simpa [goto, update_of_ne heq] using hother

lemma signalPending_self (h : i.owesSignal = true) : (s.goto call i).signalPending :=
  ⟨call, by simpa [goto] using h⟩

/-- A sleeping reader is in the queue, and a signal is on its way to it if there
is something to read. -/
structure Served (s : Sys) : Prop where
  queued : ∀ len, s.reader = .asleep len → s.tid ∈ s.queue
  served : ∀ len, s.reader = .asleep len → s.available → s.signalPending

lemma Served.goto (h : Served s)
    (hkeep : (s.inputs call).owesSignal = true → i.owesSignal = true) : Served (s.goto call i) :=
  ⟨h.queued, fun len hasleep havail => signalPending_goto (h.served len hasleep havail) hkeep⟩

lemma Served.goto_quiet (h : Served s) (i : Input)
    (hquiet : (s.inputs call).owesSignal = false) : Served (s.goto call i) :=
  h.goto fun howes => by rw [hquiet] at howes; cases howes

lemma Served.byte (h : Served s) {call : Nat} {newLine completed : Bool}
    {byte : UInt8} {rest : List UInt8} {d : LineDiscipline}
    (hcall : s.inputs call = .loop newLine (byte :: rest))
    (hbyte : s.device.lineDiscipline.inputByte byte = some (completed, d)) :
    Served { s.goto call (.loop (newLine || completed) rest) with
      device := { s.device with lineDiscipline := d } } := by
  refine ⟨h.queued, fun len hasleep havail => ?_⟩
  by_cases hold : s.available
  · apply signalPending_goto (h.served len hasleep hold)
    intro howes
    rw [hcall] at howes
    simp only [Input.owesSignal] at howes ⊢
    rw [howes, Bool.true_or]
  obtain ⟨hbuf, hlines⟩ := not_or.mp hold
  rcases havail with hbuf' | hlines'
  · exact absurd hbuf' hbuf
  apply signalPending_self
  have hcompleted := inputByte_announces hbyte (not_not.mp hlines) hlines'
  simp [Input.owesSignal, hcompleted]

lemma Served.signalAll (h : Served s) (call : Nat) (i : Input) :
    Served (s.signalAll.goto call i) := by
  have hawake : ∀ len, s.wakeReader ≠ .asleep len := by
    intro len
    unfold wakeReader
    split
    next len' hasleep => simp [h.queued len' hasleep]
    next hnot => exact hnot len
  exact ⟨fun len hasleep => absurd hasleep (hawake len),
    fun len hasleep => absurd hasleep (hawake len)⟩

lemma Served.step (h : Served s) (hok : s.JoinsInTime a) (hstep : Step s a s') : Served s' := by
  cases hstep with
  | awake _ hawake _ _ =>
    exact ⟨fun len hasleep => absurd hasleep (hawake len),
      fun len hasleep => absurd hasleep (hawake len)⟩
  | sleep hreader =>
    exact ⟨fun _ _ => by simp [tid], fun _ _ havail => hok ⟨rfl, by rw [hreader]; rfl⟩ havail⟩
  | receive hcall => exact h.goto_quiet _ (by rw [hcall]; rfl)
  | @enter call _ buf hcall hfree =>
    have hgoto := h.goto_quiet (.loop false buf) (by rw [hcall]; rfl)
    exact ⟨hgoto.queued, hgoto.served⟩
  | @loopEnd call _ newLine hcall =>
    apply h.goto
    rw [hcall]
    intro howes
    simp only [Input.owesSignal] at howes
    rw [howes]
    rfl
  | signalKey hcall =>
    apply h.goto
    rw [hcall]
    exact id
  | byte hcall hbyte => exact h.byte hcall hbyte
  | signal hcall => exact h.signalAll _ _
  | unlock hcall =>
    have hgoto := h.goto_quiet .idle (by rw [hcall]; rfl)
    exact ⟨hgoto.queued, hgoto.served⟩

end Sys

/-- In a run in which the reader joins the queue only while there is nothing to
read or a signal is still to come, it is never stranded. -/
theorem reader_never_stranded (s : Sys)
    (hs : machine.ReachableUnder Sys.JoinsInTime s) : ¬s.Stranded := by
  have hserved : s.Served := by
    apply hs.invariant
    · rintro _ ⟨tgid, rfl⟩
      constructor <;> rintro len ⟨⟩
    · intro s a s' h hok hstep
      exact h.step hok (.of_step hstep)
  rintro ⟨⟨len, hasleep⟩, havail, hnone⟩
  exact hnone (hserved.served len hasleep havail)

/-- The reader sleeps, is woken up by the line `a` and reads it; then it sleeps
once more. -/
theorem reader_never_stranded_woken :
    ∃ s, machine.ReachableUnder Sys.JoinsInTime s ∧ s.reader = .asleep 8 ∧
      s.device.lineDiscipline.completedLines = [] ∧ ¬s.Stranded := by
  have hrun : ((machine.runUnder (fun s _ => s.reader.joining = true → ¬s.available) (boot 1)
      [.read 8, .reader, .receive 0 [97, 10], .input 0 true, .reader, .reader,
        .input 0 true, .input 0 true, .input 0 true, .input 0 true, .input 0 true,
        .resume false, .reader, .read 8, .reader, .reader, .reader]).map
      fun s => (s.reader, s.device.lineDiscipline.completedLines)) =
      some (.asleep 8, []) := by
    decide
  obtain ⟨s, hs, heq⟩ := map_eq_some_iff.mp hrun
  obtain ⟨hreader, hlines⟩ := Prod.mk.inj heq
  have hstart : machine.ReachableUnder
      (fun s _ => s.reader.joining = true → ¬s.available) (boot 1) :=
    .start ⟨1, rfl⟩
  have hreach : machine.ReachableUnder Sys.JoinsInTime s := by
    apply (hstart.runUnder hs).mono
    intro s a hok hjoins havail
    exact absurd havail (hok hjoins.2)
  exact ⟨s, hreach, hreader, hlines, reader_never_stranded s hreach⟩

/-- A line is completed and announced between the check and the sleep. -/
def missedTrace : List Act :=
  [.read 8, .reader, .receive 0 [10], .input 0 true, .input 0 true,
    .input 0 true, .input 0 true, .input 0 true, .reader, .reader]

lemma missedTrace_others_idle (call : Nat) :
    ((machine.run (boot 1) missedTrace).map fun s => s.inputs (call + 1)) = some .idle := by
  rfl

theorem reader_stranded : ∃ s, machine.Reachable s ∧ s.Stranded := by
  have hrun : ((machine.run (boot 1) missedTrace).map fun s =>
      (s.reader, s.device.lineDiscipline.completedLines, s.inputs 0)) =
      some (.asleep 8, [[10]], .idle) := by
    decide
  obtain ⟨s, hs, heq⟩ := map_eq_some_iff.mp hrun
  obtain ⟨hreader, heq⟩ := Prod.mk.inj heq
  obtain ⟨hlines, hzero⟩ := Prod.mk.inj heq
  have hreach : machine.Reachable s := .run (.start ⟨1, rfl⟩) hs
  refine ⟨s, hreach, ⟨8, hreader⟩, .inr (by rw [hlines]; simp), ?_⟩
  rintro ⟨call, howes⟩
  cases call with
  | zero =>
    rw [hzero] at howes
    cases howes
  | succ call =>
    have hidle := missedTrace_others_idle call
    rw [hs, map_some, some.injEq] at hidle
    rw [hidle] at howes
    cases howes

end Redwing.TtyWait
