/-
Rules for programs on a volume, and the invariants of the directory code: what
the raw operations and the link counters keep, the directory code keeps.
-/
import Redwing.EfsDirs

namespace Redwing.Efs

open Prog Volume Triple

variable {V : Type} {α : Type}

/-! ### Triples for operations on the volume -/

section

variable {ok : V → Call → Prop} {P : V → Prop}
variable {Q : α → V → Prop} {E : Stop → V → Prop}

lemma stopOf_eq_ok {r : Except FsError α} {a : α} : stopOf r = .ok a ↔ r = .ok a := by
  cases r <;> simp [stopOf]

lemma stopOf_eq_error {r : Except FsError α} {stop : Stop} :
    stopOf r = .error stop ↔ ∃ e, r = .error e ∧ Stop.err e = stop := by
  cases r <;> simp [stopOf]

lemma triple_lookFs {f : V → Except FsError α} (hok : ∀ v a, P v → f v = .ok a → Q a v)
    (herr : ∀ v e, P v → f v = .error e → E (.err e) v) : Triple ok P (lookFs f) Q E := by
  apply Triple.look
  · exact fun v a hP h => hok v a hP (stopOf_eq_ok.mp h)
  · intro v stop hP h
    obtain ⟨e, hf, rfl⟩ := stopOf_eq_error.mp h
    exact herr v e hP hf

lemma triple_actFs {f : V → Except FsError α × V} (hok : ∀ v a, P v → (f v).1 = .ok a → Q a (f v).2)
    (herr : ∀ v e, P v → (f v).1 = .error e → E (.err e) (f v).2) : Triple ok P (actFs f) Q E := by
  apply Triple.act
  · exact fun v a hP h => hok v a hP (stopOf_eq_ok.mp h)
  · intro v stop hP h
    obtain ⟨e, hf, rfl⟩ := stopOf_eq_error.mp h
    exact herr v e hP hf

lemma triple_callFs {c : Call} {f : V → Except FsError α × V}
    (hok : ∀ v a, P v → ok v c → (f v).1 = .ok a → Q a (f v).2)
    (herr : ∀ v e, P v → ok v c → (f v).1 = .error e → E (.err e) (f v).2) :
    Triple ok P (callFs c f) Q E := by
  apply Triple.call
  · exact fun v a hP hc h => hok v a hP hc (stopOf_eq_ok.mp h)
  · intro v stop hP hc h
    obtain ⟨e, hf, rfl⟩ := stopOf_eq_error.mp h
    exact herr v e hP hc hf

lemma triple_failWith {e : FsError} (h : ∀ v, P v → E (.err e) v) : Triple ok P (failWith e) Q E :=
  ⟨fun v hP _ => h v hP⟩

lemma triple_trivial {m : EfsM V α} : Triple ok P m (fun _ _ => True) (fun _ _ => True) := by
  refine ⟨fun v _ _ => ?_⟩
  unfold Ends
  split <;> trivial

lemma triple_onError {m : EfsM V α} {cleanup : EfsM V Unit} {F : Stop → V → Prop}
    (hm : Triple ok P m Q F)
    (hcleanup : ∀ e, Triple ok (F (.err e)) cleanup (fun _ => E (.err e)) E)
    (hpanic : ∀ v, F .panicked v → E .panicked v) : Triple ok P (onError m cleanup) Q E := by
  apply recover hm
  · intro stop hstop
    cases stop with
    | err e => exact bind (hcleanup e) fun _ => fail
    | panicked => cases hstop
  intro stop v hstop hF
  cases stop with
  | err e => cases hstop
  | panicked => exact hpanic v hF

end

variable [Volume V]

/-! ### Creations -/

lemma allocInode_eq {v : V} {ino : Nat} (hfree : nextInode v = some ino) :
    allocInode v = (.ok ino, putInodeBit v ino true) := by
  rw [allocInode, hfree]

lemma allocInode_none {v : V} (hfree : nextInode v = none) :
    allocInode v = (.error FsErrorKind.noSpaceLeft.err, v) := by
  rw [allocInode, hfree]

/-- A creation is refused, and changes nothing, or works on a new inode. -/
lemma triple_createWith {ok : V → Call → Prop} {v : V} {parent : Nat}
    {name : ValidFileName} {init : Nat → EfsM V Unit} {Q : Nat → V → Prop}
    {E : Stop → V → Prop}
    (hrefused : ∀ e, checkForCreate v parent name ≠ .ok () ∨ nextInode v = none → E (.err e) v)
    (hinit : ∀ ino, checkForCreate v parent name = .ok () → nextInode v = some ino →
      Triple ok (fun s => s = putInodeBit v ino true)
        (onError (init ino) (actFs fun v => deallocInode v ino))
        (fun _ => Q ino) E) :
    Triple ok (fun s => s = v) (createWith parent name init) Q E := by
  apply bind (R := fun _ s => s = v ∧ checkForCreate v parent name = .ok ())
  · apply triple_lookFs
    · rintro s a rfl hok
      exact ⟨rfl, hok⟩
    · rintro s e rfl herr
      exact hrefused e (.inl (by rw [herr]; nofun))
  intro _
  apply bind (R := fun ino s => s = putInodeBit v ino true ∧
    checkForCreate v parent name = .ok () ∧ nextInode v = some ino)
  · apply triple_actFs
    · rintro s ino ⟨rfl, hcheck⟩ hok
      cases hfree : nextInode s with
      | none =>
        rw [allocInode_none hfree] at hok
        cases hok
      | some found =>
        rw [allocInode_eq hfree] at hok ⊢
        cases hok
        exact ⟨rfl, hcheck, rfl⟩
    · rintro s e ⟨rfl, _⟩ herr
      cases hfree : nextInode s with
      | none =>
        rw [allocInode_none hfree]
        exact hrefused e (.inr hfree)
      | some found =>
        rw [allocInode_eq hfree] at herr
        cases herr
  intro ino
  refine bind (R := fun _ => Q ino) ?_ fun _ => ⟨fun _ hs _ => hs⟩
  apply pointwise
  rintro s ⟨rfl, hcheck, hfree⟩
  exact hinit ino hcheck hfree

/-! ### Invariants of the directory code -/

/-- A property of volumes that the operations below the directory code keep, if
they are called as `ok` asks. -/
structure Stable (ok : V → Call → Prop) (I : V → Prop) : Prop where
  write : ∀ v ino offset src len, I v → ok v (.write ino offset len) →
    I (Volume.rawWrite v ino offset src len).2
  truncate : ∀ v ino newSize, I v → ok v (.truncate ino newSize) →
    I (Volume.rawTruncate v ino newSize).2
  putNlink : ∀ v ino nlink, I v → I (Volume.putNlink v ino nlink)

/-- The same for the contents of one inode only. -/
structure StableAt (ok : V → Call → Prop) (I : V → Prop) (ino : Nat) : Prop where
  write : ∀ v offset src len, I v → ok v (.write ino offset len) →
    I (Volume.rawWrite v ino offset src len).2
  truncate : ∀ v newSize, I v → ok v (.truncate ino newSize) →
    I (Volume.rawTruncate v ino newSize).2
  putNlink : ∀ v j nlink, I v → I (Volume.putNlink v j nlink)

namespace StableAt

variable {ok : V → Call → Prop} {I : V → Prop} {dir : Nat}

section

variable (h : StableAt ok I dir)

include h

lemma rawWrite (offset : Nat) (src : Bytes)
    (len : Nat) : Keeps ok I (Efs.rawWrite dir offset src len) :=
  Keeps.call fun v hI hok => h.write v offset src len hI hok

lemma rawTruncate (newSize : Nat) : Keeps ok I (Efs.rawTruncate dir newSize) :=
  Keeps.call fun v hI hok => h.truncate v newSize hI hok

lemma writeTo (d : RawDirent) (offset : Nat) : Keeps ok I (d.writeTo dir offset) := by
  apply Keeps.bind (h.rawWrite ..)
  intro size
  split
  · exact Keeps.bind Keeps.look fun total => Keeps.bind (h.rawTruncate ..) fun _ => Keeps.fail
  · exact Keeps.pure

lemma addEntry (d : RawDirent) : Keeps ok I (Efs.addEntry dir d) :=
  Keeps.bind Keeps.look fun offset => h.writeTo d offset

lemma link (child : Nat) (name : List UInt8) : Keeps ok I (Efs.link dir child name) := by
  apply Keeps.bind Keeps.look
  intro typ
  split
  · exact Keeps.fail
  · exact Keeps.bind (h.addEntry ..) fun _ => Keeps.alter fun v hI => h.putNlink v child _ hI

lemma cutLast (offset sz : Nat) : Keeps ok I (Efs.cutLast dir offset sz) := by
  unfold Efs.cutLast
  split
  · exact h.rawTruncate ..
  · exact Keeps.pure

lemma removeEntry (name : List UInt8) : Keeps ok I (Efs.removeEntry dir name) := by
  apply Keeps.bind Keeps.look
  intro sz
  apply Keeps.bind Keeps.look
  intro found
  split
  · exact Keeps.pure
  apply Keeps.bind (h.writeTo ..)
  intro _
  exact Keeps.bind (h.cutLast ..) fun _ => Keeps.pure

lemma unlinkEntry (child : Nat) (name : List UInt8) :
    Keeps ok I (Efs.unlinkEntry dir child name) := by
  apply Keeps.bind (h.removeEntry ..)
  intro found
  split
  · exact Keeps.fail
  split
  · exact Keeps.fail
  · exact Keeps.alter fun v hI => h.putNlink v child _ hI

lemma unlinkDots (parent : Nat) (typ : FileType) : Keeps ok I (Efs.unlinkDots parent dir typ) := by
  unfold Efs.unlinkDots
  split
  · exact Keeps.bind (h.unlinkEntry ..) fun _ => h.unlinkEntry ..
  · exact Keeps.pure

end
end StableAt

namespace Stable

variable {ok : V → Call → Prop} {I : V → Prop}

lemma stableAt (h : Stable ok I) (ino : Nat) : StableAt ok I ino :=
  ⟨fun v => h.write v ino, fun v => h.truncate v ino, h.putNlink⟩

lemma link (h : Stable ok I) (dir child : Nat) (name : List UInt8) :
    Keeps ok I (Efs.link dir child name) :=
  (h.stableAt dir).link child name

/-- What `mkdir` does after `init_inode`. -/
lemma linkDirectory (h : Stable ok I) (parent newIno : Nat) (name : ValidFileName) :
    Keeps ok I (do
      Efs.link newIno newIno dot
      onError (Efs.link newIno parent dotDot) (Efs.unlinkEntry newIno newIno dot)
      Efs.link parent newIno name.bytes) := by
  apply Keeps.bind (h.link ..)
  intro _
  refine Keeps.bind ?_ fun _ => h.link ..
  exact Keeps.recover (h.link ..) fun _ =>
    Keeps.bind ((h.stableAt newIno).unlinkEntry ..) fun _ => Keeps.fail

end Stable
end Redwing.Efs
