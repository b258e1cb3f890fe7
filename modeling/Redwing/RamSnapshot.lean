/-
Generated files: `ReadOnlyRamFile::read` of `redwing_ram`, which caches what its
provider returned, under the offset that `FileKind::read` keeps.
-/
import Mathlib.Data.List.Basic

namespace Redwing.RamSnapshot

open List

/-- A generated file open for one reader.  `calls` counts the calls of
`provide_content`; `offset` is that of the open file. -/
structure File where
  buffer : Option (List UInt8)
  calls : Nat
  offset : Nat

namespace File

-- the content that call number `k` returns is `provide k`
variable (provide : Nat → List UInt8)

/-- The content that a read looks at. -/
def snapshot (f : File) : List UInt8 := f.buffer.getD (provide f.calls)

/-- The file behind `if buffer.is_none()`: the content is cached. -/
def filled (f : File) : File :=
  { f with
    buffer := some (f.snapshot provide)
    calls := if f.buffer.isNone then f.calls + 1 else f.calls }

/-- The bytes read with a buffer of `len` bytes. -/
def read (f : File) (len : Nat) : List UInt8 × File :=
  if len = 0 then ([], f)
  else
    let content := f.snapshot provide
    let g := f.filled provide
    if content.length ≤ g.offset then ([], { g with buffer := none })
    else
      let bytes := (content.drop g.offset).take len
      let offset := g.offset + bytes.length
      (bytes, { g with
        offset
        buffer := if content.length ≤ offset then none else some content })

/-- Reads with buffers of the given sizes up to the one that returns nothing;
`none` if there is none. -/
def readToEnd : List Nat → File → Option (List UInt8)
  | [], _ => none
  | len :: sizes, f =>
    let (bytes, g) := f.read provide len
    if bytes = [] then some [] else (readToEnd sizes g).map (bytes ++ ·)

/-- The reader is inside `content`, or behind it with the cache dropped. -/
def Inside (content : List UInt8) (f : File) : Prop :=
  f.offset < content.length ∧ f.buffer = some content ∨
    f.offset = content.length ∧ f.buffer = none

variable {content : List UInt8} {f : File} {len : Nat} {sizes : List Nat}

lemma take_append_drop_min (offset len : Nat) :
    (content.drop offset).take len ++ content.drop (offset + min len (content.length - offset)) =
      content.drop offset := by
  conv_rhs => rw [← take_append_drop len (content.drop offset)]
  rw [← drop_drop, ← length_drop]
  congr 1
  rw [drop_eq_drop_iff]
  omega

/-- A read inside the content returns its next bytes, and neither leaves the
content nor asks the provider. -/
lemma Inside.read (hf : f.Inside content) (hlen : 0 < len) (hlt : f.offset < content.length) :
    (f.read provide len).1 = (content.drop f.offset).take len ∧
      (f.read provide len).2.Inside content ∧ (f.read provide len).2.calls = f.calls ∧
      (f.read provide len).2.offset = f.offset + min len (content.length - f.offset) := by
  obtain ⟨buffer, calls, offset⟩ := f
  obtain ⟨-, rfl⟩ | ⟨hend, -⟩ := hf
  · replace hlt : offset < content.length := hlt
    simp only [File.read, snapshot, filled, Option.getD_some, Option.isNone_some, Nat.ne_of_gt hlen,
      Bool.false_eq_true, ↓reduceIte, Nat.not_le.mpr hlt, Inside, length_take, length_drop,
      true_and, and_true]
    split <;> simp
    all_goals omega
  · exact absurd hend (Nat.ne_of_lt hlt)

lemma Inside.readToEnd_cons (hf : f.Inside content) (hlen : 0 < len)
    (hlt : f.offset < content.length) : readToEnd provide (len :: sizes) f =
      (readToEnd provide sizes (f.read provide len).2).map
        ((content.drop f.offset).take len ++ ·) := by
  have hbytes := (hf.read provide hlen hlt).1
  have hne : (f.read provide len).1 ≠ [] := by
    rw [hbytes, ne_eq, take_eq_nil_iff, drop_eq_nil_iff]
    omega
  rw [readToEnd]
  simp only [if_neg hne]
  rw [hbytes]

variable {provide}

/-- Behind the content a read asks the provider, and returns nothing exactly if
what it gets is not longer. -/
lemma Inside.read_behind (hf : f.Inside content) (hlen : 0 < len)
    (hend : ¬ f.offset < content.length) :
    (f.read provide len).1 = [] ↔ (provide f.calls).length ≤ content.length := by
  obtain ⟨hlt, -⟩ | ⟨hoffset, hbuffer⟩ := hf
  · exact absurd hlt hend
  · simp only [File.read, snapshot, filled, hbuffer, Option.getD_none, Nat.ne_of_gt hlen, hoffset,
      ↓reduceIte]
    split
    · next hle => simp [hle]
    · next hgt =>
      simp only [take_eq_nil_iff, drop_eq_nil_iff]
      omega

/-- If the next content is not longer, a reader gets exactly the rest of this
one. -/
lemma Inside.readToEnd (hsizes : ∀ len ∈ sizes, 0 < len) (hf : f.Inside content)
    (hnext : (provide f.calls).length ≤ content.length) :
    readToEnd provide sizes f = some (content.drop f.offset) ∨
      readToEnd provide sizes f = none ∧ sizes.length ≤ content.length - f.offset := by
  induction sizes generalizing f with
  | nil => exact .inr ⟨rfl, Nat.zero_le _⟩
  | cons len sizes ih =>
    obtain ⟨hlen, hsizes⟩ := forall_mem_cons.mp hsizes
    by_cases hlt : f.offset < content.length
    · obtain ⟨-, hinside, hcalls, hoffset⟩ := hf.read provide hlen hlt
      rw [hf.readToEnd_cons provide hlen hlt]
      refine (ih hsizes hinside (by rwa [hcalls])).imp (fun hrest => ?_) fun ⟨hnone, hle⟩ => ?_
      · rw [hrest, hoffset, Option.map_some, take_append_drop_min]
      · rw [hnone]
        rw [hoffset] at hle
        exact ⟨rfl, by simp only [length_cons]; omega⟩
    · have hnil := (hf.read_behind hlen hlt).mpr hnext
      rw [File.readToEnd, drop_eq_nil_of_le (Nat.le_of_not_lt hlt)]
      simp [hnil]

/-- If the next content is longer, a reader goes on into it. -/
lemma Inside.readToEnd_mixed (hsizes : ∀ len ∈ sizes, 0 < len) (hf : f.Inside content)
    (hnext : content.length < (provide f.calls).length) {bytes : List UInt8}
    (hread : File.readToEnd provide sizes f = some bytes) :
    ∃ rest, rest ≠ [] ∧ bytes = content.drop f.offset ++ rest := by
  induction sizes generalizing f bytes with
  | nil => cases hread
  | cons len sizes ih =>
    obtain ⟨hlen, hsizes⟩ := forall_mem_cons.mp hsizes
    by_cases hlt : f.offset < content.length
    · obtain ⟨-, hinside, hcalls, hoffset⟩ := hf.read provide hlen hlt
      rw [hf.readToEnd_cons provide hlen hlt] at hread
      obtain ⟨later, hlater, rfl⟩ := Option.map_eq_some_iff.mp hread
      obtain ⟨rest, hrest, rfl⟩ := ih hsizes hinside (by rwa [hcalls]) hlater
      exact ⟨rest, hrest, by rw [hoffset, ← append_assoc, take_append_drop_min]⟩
    · have hne : (f.read provide len).1 ≠ [] := fun hnil =>
        absurd ((hf.read_behind hlen hlt).mp hnil) (Nat.not_le.mpr hnext)
      rw [File.readToEnd] at hread
      simp only [if_neg hne] at hread
      obtain ⟨later, -, rfl⟩ := Option.map_eq_some_iff.mp hread
      refine ⟨_, ?_, by rw [drop_eq_nil_of_le (Nat.le_of_not_lt hlt), nil_append]⟩
      exact append_ne_nil_of_left_ne_nil hne later

/-- An empty content is not kept, so the first read ends it. -/
lemma readToEnd_of_empty (hstart : f.offset = 0) (hempty : f.snapshot provide = [])
    (hlen : 0 < len) : readToEnd provide (len :: sizes) f = some [] := by
  simp [readToEnd, File.read, Nat.ne_of_gt hlen, hempty, filled, hstart]

/-- What a reader from offset 0 has received when it gets 0 is the content at
the start exactly if that is empty or the content that the provider returns next
is not longer; otherwise the reader has gone on into that one.  Under the
condition enough reads reach the end. -/
theorem reads_one_snapshot_iff (provide : Nat → List UInt8) (f : File) (hstart : f.offset = 0)
    (sizes : List Nat) (hsizes : ∀ len ∈ sizes, 0 < len) :
    (∀ bytes, readToEnd provide sizes f = some bytes → (bytes = f.snapshot provide ↔
      f.snapshot provide = [] ∨
        (provide (f.filled provide).calls).length ≤ (f.snapshot provide).length)) ∧
    (f.snapshot provide = [] ∨
        (provide (f.filled provide).calls).length ≤ (f.snapshot provide).length →
      (f.snapshot provide).length < sizes.length → (readToEnd provide sizes f).isSome) := by
  cases sizes with
  | nil => exact ⟨fun _ => nofun, fun _ h => absurd h (Nat.not_lt_zero _)⟩
  | cons len sizes =>
    have hlen := hsizes len mem_cons_self
    by_cases hempty : f.snapshot provide = []
    · rw [readToEnd_of_empty hstart hempty hlen]
      simp [hempty]
    have hfill : readToEnd provide (len :: sizes) f =
        readToEnd provide (len :: sizes) (f.filled provide) := by
      simp [readToEnd, File.read, Nat.ne_of_gt hlen, filled, snapshot]
    have hoffset : (f.filled provide).offset = 0 := hstart
    have hinside : (f.filled provide).Inside (f.snapshot provide) :=
      .inl ⟨by rw [hoffset]; exact length_pos_iff.mpr hempty, rfl⟩
    rw [hfill]
    simp only [hempty, false_or]
    by_cases hnext : (provide (f.filled provide).calls).length ≤ (f.snapshot provide).length
    · simp only [hnext, iff_true, forall_const]
      obtain h | ⟨h, hle⟩ := hinside.readToEnd hsizes hnext
      · rw [h, hoffset]
        exact ⟨fun bytes hbytes => (Option.some.inj hbytes).symm, fun _ => rfl⟩
      · rw [h]
        exact ⟨fun _ => nofun, fun hlt => absurd hlt (by omega)⟩
    · refine ⟨fun bytes hread => iff_of_false ?_ hnext, fun h => absurd h hnext⟩
      obtain ⟨rest, hrest, rfl⟩ := hinside.readToEnd_mixed hsizes (Nat.lt_of_not_le hnext) hread
      rw [hoffset, drop_zero]
      simpa using hrest

/-- A content of three bytes, then a shorter one. -/
def shrinking : Nat → List UInt8
  | 0 => [120, 121, 122]
  | _ => [97]

theorem reads_one_snapshot_shrinking :
    readToEnd shrinking [2, 2, 2, 2] ⟨none, 0, 0⟩ = some [120, 121, 122] := by
  obtain ⟨hiff, hends⟩ := reads_one_snapshot_iff shrinking ⟨none, 0, 0⟩ rfl [2, 2, 2, 2] (by decide)
  obtain ⟨bytes, hbytes⟩ := Option.isSome_iff_exists.mp (hends (.inr (by decide)) (by decide))
  rw [hbytes, (hiff bytes hbytes).mpr (.inr (by decide))]
  rfl

/-- `a`, and `xyz` from the second call on. -/
def growing : Nat → List UInt8
  | 0 => [97]
  | _ => [120, 121, 122]

/-- The reader receives `ayz`. -/
theorem reads_mixed_content : readToEnd growing [1, 2, 1] ⟨none, 0, 0⟩ = some [97, 121, 122] ∧
    ∀ call, growing call ≠ [97, 121, 122] := by
  refine ⟨by decide, fun call => ?_⟩
  cases call <;> simp [growing]

end File
end Redwing.RamSnapshot
