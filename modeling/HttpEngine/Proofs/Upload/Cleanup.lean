import HttpEngine.Proofs.Upload.Storing

/-!
# What an upload leaves behind

Storing a body touches no path but that of its own file.  A body that is stored adds this file and
nothing else.  One that is not leaves nothing at the file's path, also where another file stood there
before: the store is as it was exactly if none did.  A panic leaves the new file, with nothing in it.
-/

namespace HttpEngine

/-! # Making a file and taking it away -/

theorem Storage.createNew_ok {s created : Storage} {path : Path}
    (h : s.createNew path = .ok created) :
    s.get? path = none ∧ created = s.put path (.file []) := by
  unfold createNew at h
  split at h
  · cases h
  · cases h
  · split at h
    · cases h
    · next hfree =>
      cases h
      exact ⟨hfree, rfl⟩

theorem Storage.file?_eq_none_of_get? {s : Storage} {path : Path}
    (h : s.get? path = none ∨ s.get? path = some .directory) : s.file? path = none := by
  unfold file?
  rcases h with h | h <;> rw [h]

theorem Storage.remove_of_file? {s : Storage} {path : Path} {content : Bytes}
    (h : s.file? path = some content) : s.remove path = .ok (s.erase path) := by
  unfold file? at h
  unfold remove
  split at h
  · next hentry => rw [hentry]
  · cases h

namespace Upload

theorem get?_withoutFile_of_ne (s : Storage) {path other : Path} (h : other ≠ path) :
    (withoutFile s path).get? other = s.get? other := by
  unfold withoutFile Storage.remove
  cases s.get? path with
  | none => rfl
  | some entry =>
      cases entry with
      | directory => rfl
      | file latest => exact Storage.get?_erase_of_ne s h

theorem get?_withoutFile_self (s : Storage) (path : Path) :
    (withoutFile s path).get? path =
      if s.get? path = some .directory then some .directory else none := by
  unfold withoutFile Storage.remove
  cases hentry : s.get? path with
  | none => simp [hentry]
  | some entry =>
      cases entry with
      | directory => simp [hentry]
      | file latest => simp [Storage.get?_erase_self]

/-! # Before and after -/

/-- What stands at the path of an upload's file before a body is stored there and after it. -/
inductive Aftermath (before after : Storage) (path : Path) :
    Outcome (Except Fault Upload) -> Prop where
  | kept {upload : Upload} {content : Bytes} : before.get? path = none -> upload.path = path ->
      after.file? path = some content -> upload.size = content.length ->
      Aftermath before after path (.done (.ok upload))
  | cleared {fault : Fault} : before.get? path = none -> after.get? path = none ->
      Aftermath before after path (.done (.error fault))
  | spared : before.get? path = some .directory -> after.get? path = some .directory ->
      Aftermath before after path (.done (.error .upload))
  | lost {content : Bytes} : before.file? path = some content -> after.get? path = none ->
      Aftermath before after path (.done (.error .upload))
  | broken {panic : Panic} : before.get? path = none -> after.file? path = some [] ->
      Aftermath before after path (.panicked panic)

variable {before after : Storage} {path : Path}

theorem aftermath_of_refused (before : Storage) (path : Path) :
    Aftermath before (withoutFile before path) path (.done (.error .upload)) := by
  have hself := get?_withoutFile_self before path
  cases hentry : before.get? path with
  | none =>
      rw [hentry] at hself
      exact .cleared hentry hself
  | some entry =>
      rw [hentry] at hself
      cases entry with
      | directory => exact .spared hentry hself
      | file latest =>
          have hcontent : before.file? path = some latest.reverse := by
            rw [Storage.file?, hentry]
          exact .lost hcontent hself

theorem settle_aftermath {created : Storage} {limits : RequestLimits} {number : UInt64}
    {contentType : String}
    (h : before.createNew (place limits number contentType) = .ok created) (after : Incoming)
    (outcome : Outcome (Except Fault Intake)) :
    Aftermath before (settle created limits number contentType after outcome).storage
      (place limits number contentType)
      (settle created limits number contentType after outcome).result := by
  rcases Storage.createNew_ok h with ⟨hfree, hcreated⟩
  have hself := get?_withoutFile_self created (place limits number contentType)
  rw [hcreated, Storage.get?_put_self] at hself
  rw [hcreated]
  cases outcome with
  | done result =>
      cases result with
      | ok intake => exact .kept hfree rfl (Storage.file?_put_self _ _ _) rfl
      | error fault => exact .cleared hfree hself
  | panicked panic => exact .broken hfree (Storage.file?_put_self before _ [])

theorem settle_elsewhere {created : Storage} {limits : RequestLimits} {number : UInt64}
    {contentType : String}
    (h : before.createNew (place limits number contentType) = .ok created) (after : Incoming)
    (outcome : Outcome (Except Fault Intake)) {other : Path}
    (hother : other ≠ place limits number contentType) :
    (settle created limits number contentType after outcome).storage.get? other =
      before.get? other := by
  have hcreated : created.get? other = before.get? other := by
    rw [(Storage.createNew_ok h).right]
    exact Storage.get?_put_of_ne before _ hother
  rw [← hcreated]
  cases outcome with
  | done result =>
      cases result with
      | ok intake => exact Storage.get?_put_of_ne created _ hother
      | error fault => exact get?_withoutFile_of_ne created hother
  | panicked panic => rfl

theorem Aftermath.file?_eq_none {fault : Fault}
    (h : Aftermath before after path (.done (.error fault))) : after.file? path = none := by
  cases h with
  | cleared hbefore hafter => exact Storage.file?_eq_none_of_get? (Or.inl hafter)
  | spared hbefore hafter => exact Storage.file?_eq_none_of_get? (Or.inr hafter)
  | lost hbefore hafter => exact Storage.file?_eq_none_of_get? (Or.inl hafter)

theorem Aftermath.get?_eq_iff {fault : Fault}
    (h : Aftermath before after path (.done (.error fault))) :
    after.get? path = before.get? path ↔ before.file? path = none := by
  cases h with
  | cleared hbefore hafter =>
      exact iff_of_true (hafter.trans hbefore.symm)
        (Storage.file?_eq_none_of_get? (Or.inl hbefore))
  | spared hbefore hafter =>
      exact iff_of_true (hafter.trans hbefore.symm)
        (Storage.file?_eq_none_of_get? (Or.inr hbefore))
  | lost hbefore hafter =>
      refine iff_of_false ?_ ?_
      · intro hsame
        rw [Storage.file?_eq_none_of_get? (Or.inl (hsame.symm.trans hafter))] at hbefore
        cases hbefore
      · rw [hbefore]
        exact Option.some_ne_none _

/--
Storing a body changes nothing but at the path of its file.  There, a body that is stored adds a
file as long as it says; a body that is not stored leaves the store as it was exactly if no file
stood there before, and otherwise that file is lost.
-/
theorem store_aftermath (storage : Storage) (number : UInt64) (buffered : Bytes)
    (contentType : String) (length : Nat) (limits : RequestLimits) (timeout : Nat)
    (source : Incoming) :
    let stored := store storage number buffered contentType length limits timeout source
    let path := place limits number contentType
    (forall other, other ≠ path -> stored.storage.get? other = storage.get? other) ∧
    Aftermath storage stored.storage path stored.result ∧
    forall fault, stored.result = .done (.error fault) ->
      ((forall other, stored.storage.get? other = storage.get? other) ↔
        storage.file? path = none) := by
  intro stored path
  have helsewhere : forall other, other ≠ path ->
      stored.storage.get? other = storage.get? other := by
    intro other hother
    cases hcreate : storage.createNew path with
    | error reason =>
        simp only [stored, store_of_error hcreate]
        exact get?_withoutFile_of_ne storage hother
    | ok created =>
        simp only [stored, store_of_ok hcreate]
        exact settle_elsewhere hcreate _ _ hother
  have haftermath : Aftermath storage stored.storage path stored.result := by
    cases hcreate : storage.createNew path with
    | error reason =>
        simp only [stored, store_of_error hcreate]
        exact aftermath_of_refused storage path
    | ok created =>
        simp only [stored, store_of_ok hcreate]
        exact settle_aftermath hcreate _ _
  refine ⟨helsewhere, haftermath, ?_⟩
  intro fault hfault
  rw [hfault] at haftermath
  rw [← haftermath.get?_eq_iff]
  constructor
  · intro hsame
    exact hsame path
  · intro hpath other
    by_cases hother : other = path
    · rw [hother]
      exact hpath
    · exact helsewhere other hother

/-! # A number that is drawn twice, and a buffer that cannot be had -/

def quietStorage : Storage :=
  Storage.empty.put (Path.ofNames ["tmp"]) .directory

def takenStorage : Storage :=
  quietStorage.put (Path.ofNames ["tmp", "upload_7.txt"]) (.ofContent (Utf8.encode "kept"))

theorem store_loses_other_file :
    (let path := Path.ofNames ["tmp", "upload_7.txt"]
     let stored := store takenStorage 7 [] "text/plain" 3 {} 1000 ⟨[], 0⟩
     stored.result = .done (.error .upload) ∧
       takenStorage.file? path = some (Utf8.encode "kept") ∧ stored.storage.file? path = none) ∧
    (let path := Path.ofNames ["tmp", "upload_7.txt"]
     let stored := store quietStorage 7 [] "text/plain" (Buffer.maxSize + 1)
       { fileChunk := Buffer.maxSize + 1 } 1000 ⟨[], 0⟩
     stored.result = .panicked .capacityOverflow ∧
       quietStorage.file? path = none ∧ stored.storage.file? path = some []) := by
  decide +kernel

end Upload
end HttpEngine
