import HttpEngine.Proofs.Multipart.Extraction
import HttpEngine.Proofs.Stream.Arrivals
import HttpEngine.Upload.Receive

/-!
# What a streamed body comes to

What goes into the file of an upload depends on the bytes of the body and on its content type, not
on the pieces in which it came.  For a client that does not wait, it arrives whole exactly if there
are enough bytes.
-/

namespace HttpEngine

def Upload.kept (contentType : String) (body : Bytes) : Bytes × Option String :=
  match Multipart.boundary? contentType with
  | some boundary => Multipart.extract boundary body
  | none => (body, none)

namespace Intake

def Took (i : Intake) (contentType : String) (body : Bytes) : Prop :=
  match Multipart.boundary? contentType with
  | some boundary => exists s : Multipart.Scanner, i.scanner = some s ∧
      s.Follows (Multipart.marker boundary) body i.content
  | none => i.scanner = none ∧ i.content = body

theorem took_new (contentType : String) : (new contentType).Took contentType [] := by
  unfold Took new
  cases Multipart.boundary? contentType with
  | some boundary =>
      exact ⟨Multipart.Scanner.new boundary, rfl, Multipart.Scanner.follows_new boundary⟩
  | none => exact ⟨rfl, rfl⟩

theorem content_cons (scanner : Option Multipart.Scanner) (piece : Bytes) (i : Intake) :
    content { scanner, pieces := piece :: i.pieces } = i.content ++ piece := by
  simp [content]

theorem Took.take {i : Intake} {contentType : String} {body : Bytes}
    (h : i.Took contentType body) (data : Bytes) :
    (i.take data).Took contentType (body ++ data) := by
  unfold Took at h ⊢
  cases hboundary : Multipart.boundary? contentType with
  | some boundary =>
      simp only [hboundary] at h ⊢
      rcases h with ⟨s, hs, hfollows⟩
      refine ⟨(s.feed data).2, by rw [Intake.take, hs], ?_⟩
      rw [Intake.take, hs]
      simp only [content_cons]
      exact hfollows.feed (Multipart.marker_length_pos boundary) data
  | none =>
      simp only [hboundary] at h ⊢
      rw [Intake.take, h.left]
      exact ⟨rfl, by rw [content_cons, h.right]⟩

theorem Took.finish {i : Intake} {contentType : String} {body : Bytes}
    (h : i.Took contentType body) :
    (i.finish.content, i.finish.filename?) = Upload.kept contentType body := by
  unfold Took at h
  unfold Upload.kept
  cases hboundary : Multipart.boundary? contentType with
  | some boundary =>
      simp only [hboundary] at h ⊢
      rcases h with ⟨s, hs, hfollows⟩
      rw [← hfollows.finish, Intake.finish, hs]
      simp only [content_cons]
      rfl
  | none =>
      simp only [hboundary] at h ⊢
      rw [Intake.finish, h.left]
      simp only [h.right, filename?, h.left]
      rfl

end Intake

namespace Upload

/-! # Reading the rest of a body -/

structure Received (contentType : String) (body : Bytes) (remaining : Nat) (source : Incoming)
    (outcome : Except Fault Intake × Incoming) : Prop where
  ok : forall intake, outcome.1 = .ok intake -> remaining ≤ source.unread.length ∧
    intake.Took contentType (body ++ source.unread.take remaining)
  prompt : source.Prompt -> outcome.2.now = source.now ∧
    forall fault, outcome.1 = .error fault ->
      fault = .connectionClosed ∧ source.unread.length < remaining

theorem received_done {contentType : String} {body : Bytes} {intake : Intake}
    (h : intake.Took contentType body) (source : Incoming) :
    Received contentType body 0 source (.ok intake, source) := by
  constructor
  · intro other hok
    cases hok
    rw [List.take_zero, List.append_nil]
    exact ⟨Nat.zero_le _, h⟩
  · intro _
    refine ⟨rfl, ?_⟩
    intro fault herror
    cases herror

theorem receiveWithin_spec {contentType : String} {chunk : Nat} (hchunk : 0 < chunk)
    (timeout fuel : Nat) {remaining : Nat} (hfuel : remaining ≤ fuel) {body : Bytes}
    {intake : Intake} (h : intake.Took contentType body) (source : Incoming) :
    Received contentType body remaining source
      (receiveWithin chunk timeout fuel remaining intake source) := by
  induction fuel generalizing remaining body intake source with
  | zero =>
      rw [Nat.le_zero.mp hfuel]
      exact received_done h source
  | succ fuel ih =>
      simp only [receiveWithin]
      split
      · next hzero =>
        rw [hzero]
        exact received_done h source
      · next hmore =>
        have hroom : 0 < min remaining chunk := by omega
        have hspec := source.read_spec hroom timeout
        have hprompt := fun hp : source.Prompt => hp.read (min remaining chunk) timeout
        generalize source.read (min remaining chunk) timeout = outcome at *
        rcases outcome with ⟨received, after⟩
        simp only at hspec hprompt ⊢
        cases hresult : received.result with
        | ok data =>
            rcases HttpEngine.Received.bytes_of_ok hresult with ⟨hbytes, hne⟩
            have hpos : 0 < data.length := List.length_pos_iff.mpr hne
            rw [hbytes] at hspec
            have hle : data.length ≤ remaining :=
              Nat.le_trans hspec.left (Nat.min_le_left _ _)
            have hlength := congrArg List.length hspec.right
            rw [List.length_append] at hlength
            have hfewer : remaining - data.length ≤ fuel := by omega
            have hlate := ih hfewer (h.take data) after
            constructor
            · intro other hok
              rcases hlate.ok other hok with ⟨henough, htook⟩
              refine ⟨by omega, ?_⟩
              rw [← hspec.right, List.take_append, List.take_of_length_le hle,
                ← List.append_assoc]
              exact htook
            · intro hp
              rcases hlate.prompt (hprompt hp).prompt with ⟨hnow, hfail⟩
              refine ⟨hnow.trans (hprompt hp).now, ?_⟩
              intro fault herror
              rcases hfail fault herror with ⟨hclosed, hless⟩
              exact ⟨hclosed, by omega⟩
        | error fault =>
            constructor
            · intro other hok
              cases hok
            · intro hp
              refine ⟨(hprompt hp).now, ?_⟩
              intro other herror
              cases herror
              rcases (hprompt hp).ended fault hresult with ⟨hclosed, hempty⟩
              rw [hempty]
              exact ⟨hclosed, Nat.pos_of_ne_zero hmore⟩

end Upload
end HttpEngine
