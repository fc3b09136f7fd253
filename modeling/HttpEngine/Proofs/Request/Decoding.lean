import HttpEngine.Request.Decode

/-!
# What a head leaves open

A request that has been read from a head has no body yet.  Its client is the peer, unless the head
names another one and is trusted; either way the client has a name.
-/

namespace HttpEngine

/-! # Addresses as text -/

namespace IpAddress

theorem dotted_ne_empty (a b c d : UInt8) : dotted a b c d ≠ "" := by
  simp [dotted, toString]

theorem hexGroup_ne_empty (group : UInt16) : hexGroup group ≠ "" := by
  simp [hexGroup]

theorem joinGroups_ne_empty (group : UInt16) (groups : List UInt16) :
    joinGroups (group :: groups) ≠ "" := by
  cases groups with
  | nil => simp [joinGroups, hexGroup_ne_empty]
  | cons next groups => simp [joinGroups, hexGroup_ne_empty]

theorem groupsText_ne_empty (group : UInt16) (groups : List UInt16) :
    groupsText (group :: groups) ≠ "" := by
  unfold groupsText
  split
  · simp
  · simp only
    split
    · simp
    · exact joinGroups_ne_empty group groups

theorem text_ne_empty (ip : IpAddress) : ip.text ≠ "" := by
  cases ip with
  | v4 a b c d => exact dotted_ne_empty a b c d
  | @v6 groups complete =>
      cases groups with
      | nil => cases complete
      | cons group groups => exact groupsText_ne_empty group groups

end IpAddress

/-! # Requests without a body -/

namespace Request

structure Fresh (peer : SocketAddress) (isTrusted : Bool) (request : Request) : Prop where
  body : request.body = none
  upload : request.upload = none
  clientAddress : request.clientAddress = peer
  clientIp : request.clientIp =
    (forwardedFor? request.headers isTrusted).getD peer.ip.text

theorem fresh_of_decode {head : Bytes} {peer : SocketAddress} {limits : RequestLimits}
    {isTrusted : Bool} {request : Request} (h : decode head peer limits isTrusted = .ok request) :
    request.Fresh peer isTrusted := by
  unfold decode at h
  split at h
  · next text _ =>
    unfold ofChars at h
    simp only at h
    cases hline : firstLine ((lines (withoutBlankLine text)).headD []) with
    | error fault =>
        rw [hline] at h
        cases h
    | ok line =>
        rw [hline] at h
        rw [← Except.ok.inj h]
        exact ⟨rfl, rfl, rfl, rfl⟩
  · cases h

theorem Fresh.clientIp_of_untrusted {peer : SocketAddress} {request : Request}
    (h : request.Fresh peer false) : request.clientIp = peer.ip.text :=
  h.clientIp

/-! # The name of a client -/

theorem forwardedFor?_ne_empty {headers : List Header} {isTrusted : Bool} {client : String}
    (h : forwardedFor? headers isTrusted = some client) : client ≠ "" := by
  unfold forwardedFor? at h
  split at h
  · split at h
    · simp only at h
      split at h
      · cases h
      · next hblank =>
        cases h
        rw [Ne, String.ofList_eq_empty_iff, ← List.isEmpty_iff]
        exact hblank
    · cases h
  · cases h

/-- A request counts as one of a client with a name, unlike the slots that nobody has used. -/
theorem Fresh.clientIp_ne_empty {peer : SocketAddress} {isTrusted : Bool} {request : Request}
    (h : request.Fresh peer isTrusted) : request.clientIp ≠ "" := by
  rw [h.clientIp]
  cases hforwarded : forwardedFor? request.headers isTrusted with
  | none => exact IpAddress.text_ne_empty peer.ip
  | some client => exact forwardedFor?_ne_empty hforwarded

end Request
end HttpEngine
