/-
# RollingRaft.Lib.FileTable — a directory of numbered files.

The files are listed in increasing order of their numbers, the order in which a reader that sorts a
directory listing visits them. `upsert` creates or replaces a file and `writeAt` overwrites part of
a file's bytes in place.
-/
import RollingRaft.Lib.ByteString

namespace RollingRaft.Lib

theorem forall_mem_concat {α : Type*} {P : α → Prop} {l : List α} {a : α} :
    (∀ x ∈ l ++ [a], P x) ↔ (∀ x ∈ l, P x) ∧ P a := by
  simp [or_imp, forall_and]

theorem pairwise_concat {α : Type*} {R : α → α → Prop} {l : List α} {a : α} :
    (l ++ [a]).Pairwise R ↔ l.Pairwise R ∧ ∀ x ∈ l, R x a := by
  simp [List.pairwise_append]

/-- Files by number, in increasing order. -/
abbrev FileTable := List (Nat × Bytes)

namespace FileTable

def upsert (id : Nat) (bytes : Bytes) : FileTable → FileTable
  | [] => [(id, bytes)]
  | (id', bytes') :: files =>
    if id < id' then (id, bytes) :: (id', bytes') :: files
    else if id = id' then (id, bytes) :: files
    else (id', bytes') :: upsert id bytes files

def unlink (id : Nat) (files : FileTable) : FileTable := files.filter fun f => f.1 ≠ id

@[simp] theorem lookup_upsert_self (id : Nat) (bytes : Bytes) (files : FileTable) :
    (upsert id bytes files).lookup id = some bytes := by
  induction files with
  | nil => simp [upsert]
  | cons f files ih =>
    obtain ⟨id', bytes'⟩ := f
    simp only [upsert]
    split
    · simp
    split
    · simp
    rename_i hne
    rw [List.lookup_cons, ih]
    have : (id == id') = false := by simpa using hne
    simp [this]

variable {id : Nat} {bytes : Bytes} {files : FileTable}

theorem lookup_eq_none (h : ∀ f ∈ files, f.1 ≠ id) : files.lookup id = none := by
  induction files with
  | nil => rfl
  | cons f files ih =>
    have hne : (id == f.1) = false := by
      simpa using (h f List.mem_cons_self).symm
    rw [List.lookup_cons, hne]
    exact ih fun g hg => h g (List.mem_cons_of_mem f hg)

theorem mem_upsert {f : Nat × Bytes} (h : f ∈ upsert id bytes files) :
    f = (id, bytes) ∨ f ∈ files := by
  induction files with
  | nil => exact .inl (List.mem_singleton.mp h)
  | cons g files ih =>
    obtain ⟨id', bytes'⟩ := g
    simp only [upsert] at h
    split at h
    · exact List.mem_cons.mp h
    split at h
    · rcases List.mem_cons.mp h with h | h
      · exact .inl h
      · exact .inr (List.mem_cons_of_mem _ h)
    rcases List.mem_cons.mp h with h | h
    · exact .inr (h ▸ List.mem_cons_self)
    · rcases ih h with h | h
      · exact .inl h
      · exact .inr (List.mem_cons_of_mem _ h)

theorem upsert_upsert (id : Nat) (bytes bytes' : Bytes) (files : FileTable) :
    upsert id bytes (upsert id bytes' files) = upsert id bytes files := by
  induction files with
  | nil => simp [upsert]
  | cons f files ih =>
    obtain ⟨id', old⟩ := f
    by_cases hlt : id < id'
    · simp [upsert, hlt]
    by_cases heq : id = id'
    · simp [upsert, heq]
    · simp [upsert, hlt, heq, ih]

theorem upsert_append (rest : FileTable) (h : ∀ f ∈ files, f.1 < id) :
    upsert id bytes (files ++ rest) = files ++ upsert id bytes rest := by
  induction files with
  | nil => rfl
  | cons f files ih =>
    obtain ⟨id', bytes'⟩ := f
    have hlt : id' < id := h (id', bytes') List.mem_cons_self
    rw [List.cons_append, upsert, if_neg (by omega), if_neg (by omega),
      ih fun g hg => h g (List.mem_cons_of_mem _ hg), List.cons_append]

theorem upsert_of_lt (h : ∀ f ∈ files, f.1 < id) :
    upsert id bytes files = files ++ [(id, bytes)] := by
  have hend : upsert id bytes (files ++ []) = files ++ [(id, bytes)] := upsert_append [] h
  rwa [List.append_nil] at hend

theorem upsert_last {bytes' : Bytes} (h : ∀ f ∈ files, f.1 < id) :
    upsert id bytes (files ++ [(id, bytes')]) = files ++ [(id, bytes)] := by
  rw [upsert_append _ h]
  simp [upsert]

end FileTable

/-- `lseek` to an offset and `write`: the bytes there are replaced, a gap is filled with zeros. -/
def writeAt (file : Bytes) (offset : Nat) (data : Bytes) : Bytes :=
  file.take offset ++ List.replicate (offset - file.length) 0 ++ data
    ++ file.drop (offset + data.length)

theorem writeAt_end {front old data : Bytes} (h : old.length ≤ data.length) :
    writeAt (front ++ old) front.length data = front ++ data := by
  have hdrop : (front ++ old).drop (front.length + data.length) = [] :=
    List.drop_eq_nil_of_le (by simp only [List.length_append]; omega)
  have hgap : front.length - (front ++ old).length = 0 := by
    simp only [List.length_append]
    omega
  rw [writeAt, hdrop, hgap, List.take_left, List.replicate_zero, List.append_nil, List.append_nil]

theorem writeAt_length (file data : Bytes) : writeAt file file.length data = file ++ data := by
  have := @writeAt_end file [] data (Nat.zero_le _)
  rwa [List.append_nil] at this

end RollingRaft.Lib
