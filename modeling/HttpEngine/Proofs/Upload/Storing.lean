import HttpEngine.Proofs.Pipeline.FileNames
import HttpEngine.Proofs.Upload.Receiving

/-!
# Storing a body under another name

The file of an upload gets what is kept of the body, or is taken away again.  If the number in its
name is exchanged for another one, the same happens under the other name, as long as both clients
send the same body without waiting and a buffer for its pieces can be had.
-/

namespace HttpEngine
namespace Upload

/-! # Receiving a whole body -/

/-- What receiving a body comes to, if it does not break off. -/
structure Whole (buffered : Bytes) (contentType : String) (length : Nat) (source : Incoming)
    (result : Except Fault Intake) (after : Incoming) : Prop where
  ok : forall intake, result = .ok intake -> length ≤ (buffered ++ source.unread).length ∧
    (intake.content, intake.filename?) =
      kept contentType ((buffered ++ source.unread).take length)
  prompt : source.Prompt -> after.now = source.now ∧
    forall fault, result = .error fault ->
      fault = .connectionClosed ∧ (buffered ++ source.unread).length < length

theorem pieceSize_pos (fileChunk remaining : Nat) : 0 < pieceSize fileChunk remaining := by
  unfold pieceSize
  omega

theorem receive_done {buffered : Bytes} {contentType : String} {length fileChunk timeout : Nat}
    {source : Incoming} {result : Except Fault Intake}
    (h : (receive buffered contentType length fileChunk timeout source).1 = .done result) :
    Whole buffered contentType length source result
      (receive buffered contentType length fileChunk timeout source).2 := by
  unfold receive at h ⊢
  simp only at h ⊢
  cases halloc : Buffer.allocate (pieceSize fileChunk (length - (buffered.take length).length)) with
  | panicked panic =>
      rw [halloc] at h
      cases h
  | done chunk =>
      rw [halloc] at h
      simp only at h ⊢
      have hchunk : 0 < chunk := by
        rw [← (Buffer.allocate_eq_done_iff.mp halloc).right]
        exact pieceSize_pos _ _
      have hspec := receiveWithin_spec hchunk timeout _
        (Nat.le_refl (length - (buffered.take length).length))
        ((Intake.took_new contentType).take (buffered.take length)) source
      cases h
      rw [List.nil_append] at hspec
      generalize receiveWithin chunk timeout _ _ _ source = outcome at *
      rcases outcome with ⟨received, after⟩
      have hrest : length - (buffered.take length).length = length - buffered.length := by
        rw [List.length_take]
        omega
      rw [hrest] at hspec
      cases received with
      | ok taken =>
          rcases hspec.ok taken rfl with ⟨henough, htook⟩
          constructor
          · intro intake hok
            cases hok
            rw [htook.finish, List.take_append, List.length_append]
            exact ⟨by omega, rfl⟩
          · intro hp
            refine ⟨(hspec.prompt hp).left, ?_⟩
            intro fault herror
            cases herror
      | error fault =>
          constructor
          · intro intake hok
            cases hok
          · intro hp
            rcases hspec.prompt hp with ⟨hnow, hfail⟩
            refine ⟨hnow, ?_⟩
            intro other herror
            cases herror
            rcases hfail fault rfl with ⟨hclosed, hless⟩
            rw [List.length_append]
            exact ⟨hclosed, by omega⟩

theorem exists_receive_done (buffered : Bytes) (contentType : String) {length fileChunk : Nat}
    (h : min fileChunk length ≤ Buffer.maxSize) (timeout : Nat) (source : Incoming) :
    exists result : Except Fault Intake,
      (receive buffered contentType length fileChunk timeout source).1 = .done result := by
  have hsize : pieceSize fileChunk (length - (buffered.take length).length) ≤
      Buffer.maxSize := by
    unfold pieceSize
    unfold Buffer.maxSize at h ⊢
    omega
  unfold receive
  simp only
  rw [Buffer.allocate_eq_done_iff.mpr ⟨hsize, rfl⟩]
  exact ⟨_, rfl⟩

theorem Whole.of_prompt {buffered : Bytes} {contentType : String} {length : Nat}
    {source : Incoming} {result : Except Fault Intake} {after : Incoming}
    (h : Whole buffered contentType length source result after) (hp : source.Prompt) :
    result.map (fun intake => (intake.content, intake.filename?)) =
      if length ≤ (buffered ++ source.unread).length then
        .ok (kept contentType ((buffered ++ source.unread).take length))
      else .error .connectionClosed := by
  cases result with
  | ok intake =>
      rcases h.ok intake rfl with ⟨henough, hkept⟩
      rw [if_pos henough, ← hkept]
      rfl
  | error fault =>
      rcases (h.prompt hp).right fault rfl with ⟨hclosed, hless⟩
      rw [if_neg (Nat.not_le_of_lt hless), hclosed]
      rfl

theorem kept_alike {buffered others : Bytes} {contentType : String} {length : Nat}
    {source following after after' : Incoming} {first second : Except Fault Intake}
    (h : Whole buffered contentType length source first after)
    (hother : Whole others contentType length following second after') (hsource : source.Prompt)
    (hfollowing : following.Prompt)
    (hsame : (buffered ++ source.unread).take length =
      (others ++ following.unread).take length) :
    second.map (fun intake => (intake.content, intake.filename?)) =
      first.map (fun intake => (intake.content, intake.filename?)) := by
  have hlengths := congrArg List.length hsame
  simp only [List.length_take] at hlengths
  rw [h.of_prompt hsource, hother.of_prompt hfollowing, hsame]
  congr 1
  exact propext ⟨by omega, by omega⟩

/-! # What becomes of the file -/

def place (limits : RequestLimits) (number : UInt64) (contentType : String) : Path :=
  limits.uploadDirectory ++ [fileName number (MediaType.extensionFor contentType)]

def settle (created : Storage) (limits : RequestLimits) (number : UInt64) (contentType : String)
    (after : Incoming) : Outcome (Except Fault Intake) -> Stored
  | .done (.ok intake) =>
      { result := .done (.ok
          { directory := limits.uploadDirectory, serial := number,
            extension := MediaType.extensionFor contentType, filename := intake.filename?,
            size := intake.content.length, contentType })
        storage := created.put (place limits number contentType) (.ofContent intake.content)
        source := after
        events := [.bodySaved intake.content.length] }
  | .done (.error fault) =>
      { result := .done (.error fault)
        storage := withoutFile created (place limits number contentType)
        source := after
        events := [] }
  | .panicked panic =>
      { result := .panicked panic, storage := created, source := after, events := [] }

section

variable {storage created : Storage} {number : UInt64} {contentType : String}
  {limits : RequestLimits}

theorem store_of_error {reason : StorageError}
    (h : storage.createNew (place limits number contentType) = .error reason) (buffered : Bytes)
    (length timeout : Nat) (source : Incoming) :
    store storage number buffered contentType length limits timeout source =
      { result := .done (.error .upload),
        storage := withoutFile storage (place limits number contentType), source,
        events := [.uploadFailed] } := by
  unfold store
  unfold place at h
  simp only
  rw [h]
  rfl

theorem store_of_ok (h : storage.createNew (place limits number contentType) = .ok created)
    (buffered : Bytes) (length timeout : Nat) (source : Incoming) :
    store storage number buffered contentType length limits timeout source =
      settle created limits number contentType
        (receive buffered contentType length limits.fileChunk timeout source).2
        (receive buffered contentType length limits.fileChunk timeout source).1 := by
  unfold store
  unfold place at h
  simp only
  rw [h]
  simp only
  rcases receive buffered contentType length limits.fileChunk timeout source with
    ⟨received, after⟩
  cases received with
  | panicked panic => rfl
  | done result =>
      cases result with
      | ok intake => rfl
      | error fault => rfl

end

/-! # What is stored -/

structure Kept (storage : Storage) (contentType : String) (body : Bytes) (upload : Upload) :
    Prop where
  size : upload.size = (kept contentType body).1.length
  filename : upload.filename = (kept contentType body).2
  content : storage.file? upload.path = some (kept contentType body).1

theorem store_ok {storage : Storage} {number : UInt64} {buffered : Bytes} {contentType : String}
    {length timeout : Nat} {limits : RequestLimits} {source : Incoming} {upload : Upload}
    (h : (store storage number buffered contentType length limits timeout source).result =
      .done (.ok upload)) :
    length ≤ (buffered ++ source.unread).length ∧
      Kept (store storage number buffered contentType length limits timeout source).storage
        contentType ((buffered ++ source.unread).take length) upload := by
  cases hcreate : storage.createNew (place limits number contentType) with
  | error reason =>
      rw [store_of_error hcreate] at h
      cases h
  | ok created =>
      rw [store_of_ok hcreate] at h ⊢
      cases hreceive : (receive buffered contentType length limits.fileChunk timeout source).1 with
      | panicked panic =>
          rw [hreceive] at h
          cases h
      | done result =>
          rw [hreceive] at h
          cases result with
          | error fault => cases h
          | ok intake =>
              rcases (receive_done hreceive).ok intake rfl with ⟨henough, hkept⟩
              have hcontent : intake.content = (kept contentType _).1 := congrArg Prod.fst hkept
              have hname : intake.filename? = (kept contentType _).2 := congrArg Prod.snd hkept
              cases h
              refine ⟨henough, congrArg List.length hcontent, hname, ?_⟩
              rw [← hcontent]
              exact Storage.file?_put_self created _ intake.content

theorem receive_panicked {buffered : Bytes} {contentType : String}
    {length fileChunk timeout : Nat} {source : Incoming} {panic : Panic}
    (h : (receive buffered contentType length fileChunk timeout source).1 = .panicked panic) :
    Buffer.maxSize < min fileChunk length ∧ panic = .capacityOverflow := by
  constructor
  · apply Nat.lt_of_not_le
    intro hfits
    rcases exists_receive_done buffered contentType hfits timeout source with ⟨result, hresult⟩
    rw [hresult] at h
    cases h
  · unfold receive at h
    simp only at h
    cases halloc : Buffer.allocate
        (pieceSize fileChunk (length - (buffered.take length).length)) with
    | done chunk =>
        rw [halloc] at h
        cases h
    | panicked reason =>
        rw [halloc] at h
        cases h
        exact (Buffer.allocate_eq_panicked_iff.mp halloc).right

theorem receive_unbuffered {buffered : Bytes} {length fileChunk : Nat}
    (h : Buffer.maxSize < min fileChunk (length - buffered.length)) (contentType : String)
    (timeout : Nat) (source : Incoming) :
    (receive buffered contentType length fileChunk timeout source).1 =
      .panicked .capacityOverflow := by
  have hsize : Buffer.maxSize < pieceSize fileChunk (length - (buffered.take length).length) := by
    unfold pieceSize
    rw [List.length_take]
    omega
  unfold receive
  simp only
  rw [Buffer.allocate_eq_panicked_iff.mpr ⟨hsize, rfl⟩]

theorem store_panicked {storage : Storage} {number : UInt64} {buffered : Bytes}
    {contentType : String} {length timeout : Nat} {limits : RequestLimits} {source : Incoming}
    {panic : Panic}
    (h : (store storage number buffered contentType length limits timeout source).result =
      .panicked panic) :
    Buffer.maxSize < min limits.fileChunk length ∧ panic = .capacityOverflow := by
  cases hcreate : storage.createNew (place limits number contentType) with
  | error reason =>
      rw [store_of_error hcreate] at h
      cases h
  | ok created =>
      rw [store_of_ok hcreate] at h
      cases hreceive : (receive buffered contentType length limits.fileChunk timeout source).1 with
      | panicked reason =>
          rw [hreceive] at h
          cases h
          exact receive_panicked hreceive
      | done result =>
          rw [hreceive] at h
          cases result with
          | ok intake => cases h
          | error fault => cases h

theorem createNew_place {storage : Storage} {limits : RequestLimits} {number : UInt64}
    {contentType : String} (hdirectory : storage.get? limits.uploadDirectory = some .directory)
    (hfree : storage.get? (place limits number contentType) = none) :
    storage.createNew (place limits number contentType) =
      .ok (storage.put (place limits number contentType) (.file [])) := by
  have habove : (place limits number contentType).dropLast = limits.uploadDirectory :=
    List.dropLast_concat
  rw [Storage.createNew, habove, hdirectory]
  simp only [hfree]

theorem exists_store_ok {storage : Storage} {number : UInt64} {buffered : Bytes}
    {contentType : String} {length : Nat} {limits : RequestLimits} {source : Incoming}
    (hdirectory : storage.get? limits.uploadDirectory = some .directory)
    (hfree : storage.get? (place limits number contentType) = none)
    (hchunk : min limits.fileChunk length ≤ Buffer.maxSize) (hp : source.Prompt)
    (henough : length ≤ (buffered ++ source.unread).length) (timeout : Nat) :
    exists upload : Upload,
      (store storage number buffered contentType length limits timeout source).result =
        .done (.ok upload) := by
  rcases exists_receive_done buffered contentType hchunk timeout source with ⟨result, hresult⟩
  have hkept := (receive_done hresult).of_prompt hp
  rw [if_pos henough] at hkept
  rw [store_of_ok (createNew_place hdirectory hfree), hresult]
  cases result with
  | error fault => cases hkept
  | ok intake => exact ⟨_, rfl⟩

/-! # The number in the name -/

def exchange (directory : Path) (extension : String) (number other : UInt64) :
    Equiv.Perm Path :=
  Equiv.swap (directory ++ [fileName number extension]) (directory ++ [fileName other extension])

theorem exchange_file (directory : Path) (extension : String) (number other : UInt64) :
    exchange directory extension number other (directory ++ [fileName number extension]) =
      directory ++ [fileName other extension] :=
  Equiv.swap_apply_left _ _

theorem exchange_directory (directory : Path) (extension : String) (number other : UInt64) :
    exchange directory extension number other directory = directory := by
  apply Equiv.swap_apply_of_ne_of_ne <;> simp

theorem withoutFile_rename (ρ : Equiv.Perm Path) (storage : Storage) (path : Path) :
    withoutFile (storage.rename ρ) (ρ path) = (withoutFile storage path).rename ρ := by
  unfold withoutFile
  rw [Storage.remove_rename]
  cases storage.remove path with
  | ok rest => rfl
  | error reason => rfl

theorem store_now (storage : Storage) (number : UInt64) (buffered : Bytes) (contentType : String)
    {length : Nat} {limits : RequestLimits} (h : min limits.fileChunk length ≤ Buffer.maxSize)
    (timeout : Nat) {source : Incoming} (hp : source.Prompt) :
    (store storage number buffered contentType length limits timeout source).source.now =
      source.now := by
  rcases exists_receive_done buffered contentType h timeout source with ⟨result, hresult⟩
  have hnow := ((receive_done hresult).prompt hp).left
  cases hcreate : storage.createNew (place limits number contentType) with
  | error reason => rw [store_of_error hcreate]
  | ok created =>
      rw [store_of_ok hcreate, hresult]
      cases result with
      | ok intake => exact hnow
      | error fault => exact hnow

structure Stored.Alike (ρ : Equiv.Perm Path) (a b : Stored) : Prop where
  result : (exists fault : Fault, a.result = .done (.error fault) ∧
      b.result = .done (.error fault)) ∨
    exists u v : Upload, a.result = .done (.ok u) ∧ b.result = .done (.ok v) ∧ u.Alike ρ v
  storage : b.storage = a.storage.rename ρ
  events : b.events = a.events

theorem store_alike (storage : Storage) (number other : UInt64) {buffered others : Bytes}
    (contentType : String) {length : Nat} (limits : RequestLimits) {chunk : Nat} (timeout : Nat)
    {source following : Incoming} (hsource : source.Prompt) (hfollowing : following.Prompt)
    (hsame : (buffered ++ source.unread).take length =
      (others ++ following.unread).take length)
    (hpieces : min limits.fileChunk length ≤ Buffer.maxSize)
    (hothers : min chunk length ≤ Buffer.maxSize) :
    let ρ := exchange limits.uploadDirectory (MediaType.extensionFor contentType) number other
    Stored.Alike ρ
      (store storage number buffered contentType length limits timeout source)
      (store (storage.rename ρ) other others contentType length
        { limits with fileChunk := chunk } timeout following) := by
  intro ρ
  have hpath : place { limits with fileChunk := chunk } other contentType =
      ρ (place limits number contentType) :=
    (exchange_file _ _ _ _).symm
  have habove : ρ (place limits number contentType).dropLast =
      (ρ (place limits number contentType)).dropLast := by
    rw [← hpath, place, place, List.dropLast_concat, List.dropLast_concat]
    exact exchange_directory _ _ _ _
  have hcreate := Storage.createNew_rename ρ storage habove
  rw [← hpath] at hcreate
  cases hcreated : storage.createNew (place limits number contentType) with
  | error reason =>
      rw [hcreated] at hcreate
      rw [store_of_error hcreated, store_of_error hcreate, hpath]
      exact ⟨Or.inl ⟨.upload, rfl, rfl⟩, withoutFile_rename ρ storage _, rfl⟩
  | ok created =>
      rw [hcreated] at hcreate
      rcases exists_receive_done buffered contentType hpieces timeout source with ⟨first, hfirst⟩
      rcases exists_receive_done others contentType hothers timeout following with
        ⟨second, hsecond⟩
      have hresults := kept_alike (receive_done hfirst) (receive_done hsecond) hsource hfollowing
        hsame
      rw [store_of_ok hcreated, store_of_ok hcreate, hfirst, hsecond]
      cases first with
      | error fault =>
          cases second with
          | error fault' =>
              cases hresults
              refine ⟨Or.inl ⟨fault, rfl, rfl⟩, ?_, rfl⟩
              simp only [settle]
              rw [hpath]
              exact withoutFile_rename ρ created _
          | ok intake' => cases hresults
      | ok intake =>
          cases second with
          | error fault' => cases hresults
          | ok intake' =>
              have hkept := Except.ok.inj hresults
              have hcontent : intake'.content = intake.content := congrArg Prod.fst hkept
              have hname : intake'.filename? = intake.filename? := congrArg Prod.snd hkept
              simp only [settle, hcontent, hname]
              refine ⟨Or.inr ⟨_, _, rfl, rfl, rfl, hpath⟩, ?_, rfl⟩
              rw [hpath]
              exact Storage.put_rename ρ created _ _

end Upload
end HttpEngine
