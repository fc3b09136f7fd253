import HttpEngine.Proofs.Stream.Collecting
import HttpEngine.Proofs.Upload.Cleanup

/-!
# A body in memory and a body in a file

A body that is no form comes to the same in memory and in a file.  Both ways gather what has come
with the head and what comes in time behind it, in reads of a different size, and ask for the same
number of bytes.  So both have the same bytes in the end, or the same fault; what comes behind the
body matters to neither.  Only for limits beyond the longest wait of a reader are they apart.
-/

namespace HttpEngine

/-! # Pieces of any size -/

namespace Intake

theorem finish_of_none {i : Intake} (h : i.scanner = none) : i.finish = i := by
  rw [finish, h]

theorem take_of_none {i : Intake} (h : i.scanner = none) (data : Bytes) :
    (i.take data).scanner = none ∧ (i.take data).content = i.content ++ data := by
  rw [take, h]
  exact ⟨rfl, content_cons none data i⟩

end Intake

namespace Upload

theorem receiveWithin_gather {chunk : Nat} (hchunk : 0 < chunk) (timeout fuel : Nat)
    {remaining : Nat} (hfuel : remaining ≤ fuel) {intake : Intake} (h : intake.scanner = none)
    (source : Incoming) :
    (receiveWithin chunk timeout fuel remaining intake source).1.map (fun i => i.finish.content) =
      ((source.supply timeout timeout).behind intake.content).gather
        (intake.content.length + remaining) := by
  have hdone : forall {intake : Intake} (source : Incoming), intake.scanner = none ->
      Except.ok intake.finish.content =
        ((source.supply timeout timeout).behind intake.content).gather
          (intake.content.length + 0) := by
    intro intake source h
    rw [Intake.finish_of_none h, Nat.add_zero, Supply.gather_behind_of_le (Nat.le_refl _),
      List.take_length]
  -- A piece moves from what comes in time to what is kept.
  induction fuel generalizing remaining intake source with
  | zero =>
      rw [Nat.le_zero.mp hfuel]
      exact hdone source h
  | succ fuel ih =>
      simp only [receiveWithin]
      by_cases hzero : remaining = 0
      · rw [if_pos hzero, hzero]
        exact hdone source h
      · rw [if_neg hzero]
        have hroom : 0 < min remaining chunk := by omega
        have hspec := source.read_spec hroom timeout
        have hdraws := source.read_draws (min remaining chunk) timeout timeout
        generalize source.read (min remaining chunk) timeout = outcome at *
        rcases outcome with ⟨received, after⟩
        simp only at hspec hdraws ⊢
        cases hdraws with
        | @data data hresult hsupply =>
            rcases HttpEngine.Received.bytes_of_ok hresult with ⟨hbytes, hne⟩
            have hpos : 0 < data.length := List.length_pos_iff.mpr hne
            have hle : data.length ≤ remaining := by
              rw [hbytes] at hspec
              exact Nat.le_trans hspec.left (Nat.min_le_left _ _)
            have hfewer : remaining - data.length ≤ fuel := by omega
            rcases Intake.take_of_none h data with ⟨hscanner, hcontent⟩
            have hcount : intake.content.length + remaining =
                (intake.take data).content.length + (remaining - data.length) := by
              rw [hcontent, List.length_append]
              omega
            simp only [hresult]
            rw [hsupply, Supply.behind_behind, ← hcontent, hcount]
            exact ih hfewer hscanner after
        | fault hresult hsupply =>
            simp only [hresult]
            rw [hsupply, Supply.gather_fault (by omega)]
            rfl

theorem receive_gather {contentType : String} (hboundary : Multipart.boundary? contentType = none)
    {buffered : Bytes} {length fileChunk timeout : Nat} {source : Incoming}
    {result : Except Fault Intake}
    (h : (receive buffered contentType length fileChunk timeout source).1 = .done result) :
    result.map Intake.content =
      ((source.supply timeout timeout).behind buffered).gather length := by
  unfold receive at h
  simp only at h
  cases halloc : Buffer.allocate (pieceSize fileChunk (length - (buffered.take length).length)) with
  | panicked panic =>
      rw [halloc] at h
      cases h
  | done chunk =>
      rw [halloc] at h
      have hchunk : 0 < chunk := by
        rw [← (Buffer.allocate_eq_done_iff.mp halloc).right]
        exact pieceSize_pos _ _
      have hnew : (Intake.new contentType).scanner = none := by
        rw [Intake.new, hboundary]
        rfl
      rcases Intake.take_of_none hnew (buffered.take length) with ⟨hscanner, hcontent⟩
      have hgather := receiveWithin_gather hchunk timeout _
        (Nat.le_refl (length - (buffered.take length).length)) hscanner source
      have hfront : (Intake.new contentType).content ++ buffered.take length =
          buffered.take length := rfl
      have hcount : (buffered.take length).length + (length - (buffered.take length).length) =
          length := by
        rw [List.length_take]
        omega
      rw [hcontent, hfront, hcount, Supply.gather_behind_take] at hgather
      rw [← hgather]
      cases h
      generalize (receiveWithin _ _ _ _ _ source).1 = received
      cases received with
      | ok intake => rfl
      | error fault => rfl

/-! # What becomes of the body -/

def written (created : Storage) (limits : RequestLimits) (number : UInt64)
    (contentType : String) : Except Fault Bytes -> Outcome (Except Fault Upload) × Storage
  | .ok body =>
      (.done (.ok
        { directory := limits.uploadDirectory, serial := number,
          extension := MediaType.extensionFor contentType, filename := none,
          size := body.length, contentType }),
        created.put (place limits number contentType) (.ofContent body))
  | .error fault =>
      (.done (.error fault), withoutFile created (place limits number contentType))

theorem store_written {storage created : Storage} {number : UInt64} {contentType : String}
    {limits : RequestLimits} (hboundary : Multipart.boundary? contentType = none)
    (hcreate : storage.createNew (place limits number contentType) = .ok created)
    {length : Nat} (hfits : length ≤ Buffer.maxSize) (buffered : Bytes) (timeout : Nat)
    (source : Incoming) :
    ((store storage number buffered contentType length limits timeout source).result,
      (store storage number buffered contentType length limits timeout source).storage) =
      written created limits number contentType
        (((source.supply timeout timeout).behind buffered).gather length) := by
  have hchunk : min limits.fileChunk length ≤ Buffer.maxSize :=
    Nat.le_trans (Nat.min_le_right _ _) hfits
  rcases exists_receive_done buffered contentType hchunk timeout source with ⟨result, hresult⟩
  rw [store_of_ok hcreate, ← receive_gather hboundary hresult, hresult]
  cases result with
  | error fault => rfl
  | ok intake =>
      have hkept := ((receive_done hresult).ok intake rfl).right
      rw [kept, hboundary] at hkept
      have hname : intake.filename? = none := congrArg Prod.snd hkept
      simp only [settle, hname]
      rfl

end Upload

/-! # Both ways -/

inductive Reader.AfterHead : Reader -> Prop where
  | intro {capacity : Nat} {source : Incoming} {first later : Nat} {head : Bytes} :
      capacity ≤ Buffer.maxSize ->
      ((new capacity).readHead source first later).result = .ok head ->
      AfterHead ((new capacity).readHead source first later).reader

namespace Reader

theorem AfterHead.holds {r : Reader} (h : r.AfterHead) (source : Incoming) :
    r.Holds source (r.bytes ++ source.unread) := by
  cases h with
  | intro _ _ => exact ⟨rfl, (readHead_spec _ _ _ _).holds.room⟩

theorem AfterHead.headLength_le {r : Reader} (h : r.AfterHead) :
    r.headLength ≤ r.bytes.length := by
  cases h with
  | intro _ hok =>
      rcases (readHead_spec _ _ _ _).ok _ hok with ⟨hfound, hlength, _⟩
      rw [hlength]
      exact headLength?_le hfound

theorem AfterHead.capacity_le {r : Reader} (h : r.AfterHead) : r.capacity ≤ Buffer.maxSize := by
  cases h with
  | intro hcapacity _ =>
      rw [(readHead_spec _ _ _ _).capacity]
      exact hcapacity

theorem AfterHead.readBody {r : Reader} (h : r.AfterHead) {length : Nat}
    (hfits : r.headLength + length ≤ r.capacity) (source : Incoming) (timeout : Nat) :
    (r.readBody source length timeout).result =
      ((source.supply (min timeout longestWait) (min timeout longestWait)).behind
        r.buffered).gather length :=
  readBody_gather (h.holds source) h.headLength_le hfits timeout

end Reader

namespace Upload

structure SendsSame (length : Nat) (buffered others : Bytes) (source following : Incoming) :
    Prop where
  front : others.take length = buffered.take length
  now : following.now = source.now
  arrivals : Arrival.upTo following.arrivals (length - buffered.length) =
    Arrival.upTo source.arrivals (length - buffered.length)

theorem SendsSame.gather {length : Nat} {buffered others : Bytes} {source following : Incoming}
    (h : SendsSame length buffered others source following) (first later : Nat) :
    ((following.supply first later).behind others).gather length =
      ((source.supply first later).behind buffered).gather length := by
  rw [← Supply.gather_behind_take, h.front, Supply.gather_behind_take]
  apply Supply.gather_behind_congr
  rw [Incoming.supply, Incoming.supply, ← Incoming.supplyUntil_gather_upTo, h.arrivals, h.now,
    Incoming.supplyUntil_gather_upTo]

theorem gather_longestWait {buffered : Bytes} {length timeout : Nat} {source : Incoming}
    (h : timeout ≤ Reader.longestWait ∨
      ((source.supply (min timeout Reader.longestWait) (min timeout Reader.longestWait)).behind
        buffered).gather length ≠ .error .timeout) :
    ((source.supply timeout timeout).behind buffered).gather length =
      ((source.supply (min timeout Reader.longestWait) (min timeout Reader.longestWait)).behind
        buffered).gather length := by
  rcases h with hle | hne
  · rw [Nat.min_eq_left hle]
  · exact Supply.gather_behind_of_ne
      (source.supply_gather_of_le (Nat.min_le_left _ _) (Nat.min_le_left _ _)) hne

structure Agrees (read : Except Fault Bytes) (length : Nat)
    (result : Outcome (Except Fault Upload)) (storage : Storage) : Prop where
  ok : forall body, read = .ok body -> exists upload : Upload, result = .done (.ok upload) ∧
    storage.file? upload.path = some body ∧ upload.size = length
  stored : forall upload, result = .done (.ok upload) -> exists body, read = .ok body
  fault : forall fault, read = .error fault ↔ result = .done (.error fault)

theorem agrees_written (created : Storage) (limits : RequestLimits) (number : UInt64)
    (contentType : String) {read : Except Fault Bytes} {length : Nat}
    (h : forall body, read = .ok body -> body.length = length) :
    Agrees read length (written created limits number contentType read).1
      (written created limits number contentType read).2 := by
  cases read with
  | ok body =>
      constructor
      · rintro _ ⟨⟩
        exact ⟨_, rfl, Storage.file?_put_self created _ body, h body rfl⟩
      · intro _ _
        exact ⟨body, rfl⟩
      · intro fault
        exact iff_of_false (fun hread => nomatch hread) (fun hstored => nomatch hstored)
  | error fault =>
      constructor
      · intro body hread
        cases hread
      · intro upload hstored
        cases hstored
      · intro other
        constructor
        · rintro ⟨⟩
          rfl
        · rintro ⟨⟩
          rfl

variable {r : Reader} {length : Nat} {storage created : Storage} {number : UInt64}
  {contentType : String} {limits : RequestLimits}

/--
Behind a head that has been received, a body that is no form and fits the room comes to the same in
memory and in a new file, in pieces of any size: to the same bytes, or to the same fault.  Only if
the limit of a read is beyond the longest wait of a reader, and the reader has waited in vain, the
file may come to something else.  What the client sends behind the body changes neither.
-/
theorem store_agrees_readBody (hreader : r.AfterHead)
    (hfits : r.headLength + length ≤ r.capacity)
    (hboundary : Multipart.boundary? contentType = none)
    (hcreate : storage.createNew (place limits number contentType) = .ok created)
    (timeout : Nat) (source : Incoming) :
    let read := (r.readBody source length timeout).result
    let stored := store storage number r.buffered contentType length limits timeout source
    (timeout ≤ Reader.longestWait ∨ read ≠ .error .timeout ->
      Agrees read length stored.result stored.storage) ∧
    forall (other : Reader) (following : Incoming), other.AfterHead ->
      other.headLength + length ≤ other.capacity ->
      SendsSame length r.buffered other.buffered source following ->
      let again := store storage number other.buffered contentType length limits timeout following
      (other.readBody following length timeout).result = read ∧
      again.result = stored.result ∧ again.storage = stored.storage := by
  intro read stored
  have hroom : length ≤ Buffer.maxSize := by
    have hcapacity := hreader.capacity_le
    omega
  have hread := hreader.readBody hfits source timeout
  have hstored := store_written hboundary hcreate hroom r.buffered timeout source
  constructor
  · intro hlimit
    have hlength : forall body, read = .ok body -> body.length = length := by
      intro body hbody
      exact Supply.length_of_gather (hread.symm.trans hbody)
    have hagrees := agrees_written created limits number contentType hlength
    rw [gather_longestWait (hread ▸ hlimit), ← hread] at hstored
    rwa [← hstored] at hagrees
  · intro other following hother hotherFits hsends again
    have hagain := store_written hboundary hcreate hroom other.buffered timeout following
    rw [hsends.gather, ← hstored] at hagain
    refine ⟨?_, congrArg Prod.fst hagain, congrArg Prod.snd hagain⟩
    rw [hother.readBody hotherFits following timeout, hsends.gather, ← hread]

/-! # A body in two parts, and one that comes late -/

def twoBehind : Reader :=
  ((Reader.new 16).readHead ⟨[.data (Utf8.encode "a\r\n\r\nxy")], 0⟩ 0 0).reader

theorem twoBehind_afterHead : twoBehind.AfterHead :=
  .intro (by decide) (by rfl : _ = Except.ok (Utf8.encode "a\r\n\r\n"))

def wholeUpload : Upload :=
  { directory := Path.ofNames ["tmp"], serial := 7, extension := ".txt", filename := none,
    size := 3, contentType := "text/plain" }

theorem store_agrees_readBody_parts :
    let limits : RequestLimits := { fileChunk := 0 }
    let source : Incoming := ⟨[.pause 5, .data (Utf8.encode "z and more"), .stall], 0⟩
    let following : Incoming := ⟨[.pause 5, .data (Utf8.encode "z"), .ended], 0⟩
    let stored := store quietStorage 7 twoBehind.buffered "text/plain" 3 limits 5 source
    (twoBehind.AfterHead ∧ twoBehind.headLength + 3 ≤ twoBehind.capacity ∧
      Multipart.boundary? "text/plain" = none ∧
      quietStorage.createNew (place limits 7 "text/plain") =
        .ok (quietStorage.put (place limits 7 "text/plain") (.file [])) ∧
      5 ≤ Reader.longestWait) ∧
    (twoBehind.readBody source 3 5).result = .ok (Utf8.encode "xyz") ∧
    (exists upload : Upload, stored.result = .done (.ok upload) ∧
      stored.storage.file? upload.path = some (Utf8.encode "xyz") ∧ upload.size = 3) ∧
    (twoBehind.readBody following 3 5).result = (twoBehind.readBody source 3 5).result := by
  intro limits source following stored
  have hfits : twoBehind.headLength + 3 ≤ twoBehind.capacity := by decide +kernel
  have hboundary : Multipart.boundary? "text/plain" = none := by decide +kernel
  have hcreate : quietStorage.createNew (place limits 7 "text/plain") =
      .ok (quietStorage.put (place limits 7 "text/plain") (.file [])) := by
    decide +kernel
  have hlimit : 5 ≤ Reader.longestWait := by decide
  have hread : (twoBehind.readBody source 3 5).result = .ok (Utf8.encode "xyz") := by
    decide +kernel
  have hsends : SendsSame 3 twoBehind.buffered twoBehind.buffered source following :=
    ⟨rfl, rfl, by decide +kernel⟩
  have hlaw := store_agrees_readBody twoBehind_afterHead hfits hboundary hcreate 5 source
  exact ⟨⟨twoBehind_afterHead, hfits, hboundary, hcreate, hlimit⟩, hread,
    (hlaw.left (Or.inl hlimit)).ok _ hread,
    (hlaw.right twoBehind following twoBehind_afterHead hfits hsends).left⟩

theorem store_waits_longer :
    let source : Incoming :=
      ⟨[.pause 600000000000, .pause 600000000000, .data (Utf8.encode "z")], 0⟩
    let stored := store quietStorage 7 twoBehind.buffered "text/plain" 3 {} 1500000000000 source
    twoBehind.AfterHead ∧ twoBehind.headLength + 3 ≤ twoBehind.capacity ∧
    Multipart.boundary? "text/plain" = none ∧
    (twoBehind.readBody source 3 1500000000000).result = .error .timeout ∧
    stored.result = .done (.ok wholeUpload) ∧
    stored.storage.file? wholeUpload.path = some (Utf8.encode "xyz") := by
  exact ⟨twoBehind_afterHead, by decide +kernel⟩

end Upload
end HttpEngine
