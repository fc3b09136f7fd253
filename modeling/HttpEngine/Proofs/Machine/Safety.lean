import HttpEngine.Proofs.Machine.RateLimiter
import HttpEngine.Proofs.Machine.Reader
import HttpEngine.Proofs.Machine.Template
import HttpEngine.Proofs.Machine.Upload

/-!
# No input brings a machine to a slip

Whatever the sizes and limits are, and whatever comes in whatever pieces, each part of the engine
goes its way in a machine to the end, and gives there what it gives without one.  All that it takes
is that texts and byte strings lie in buffers, which bounds their lengths.
-/

namespace HttpEngine
namespace Machine

/--
No place is ever outside of a buffer or within a character, no word overflows, no remainder is taken
by zero and no bounds are crossed: a reader of any size, whatever is asked of it and however its
input comes; the head of a request, the pairs of a query or of cookies, templates and paths, content
types and the headers of parts, as far as buffers hold them; the scanner of a form, in whatever
chunks the form comes; a body that is written to a file, whatever its length and the size of its
pieces are; and a limiter with a table of any size.  A run that does not come to its end is one for
which there is no buffer, and it asks for one beyond the largest.
-/
theorem never_slips :
    (forall (size : Nat) (source : Incoming) (calls : List ReadBuffer.Call),
      Yields size (ReadBuffer.new size >>= fun b => b.answerAll source calls) fun answers =>
        answers = (Reader.new size).answerAll source calls) ∧
    (forall (head : Bytes) (peer : SocketAddress) (limits : RequestLimits) (isTrusted : Bool),
      head.length ≤ Buffer.maxSize ->
      decode head peer limits isTrusted = .ok (Request.decode head peer limits isTrusted)) ∧
    (forall (γ : Type) [Collector γ] (separator : Char) (byte : UInt8) (isTrimmed : Bool)
      (limit : Nat) (held : γ) (text : List Char),
      byte.toNat < 0x80 -> Utf8.encodeChar separator = [byte] ->
      textLength text ≤ Buffer.maxSize ->
      splitPairs byte isTrimmed limit held text =
        .ok (Pairs.addPieces separator isTrimmed limit held text)) ∧
    (forall (maxParams : Nat) (template path : String) (held : Array Pair),
      (Utf8.encode template).length ≤ Buffer.maxSize ->
      (Utf8.encode path).length ≤ Buffer.maxSize ->
      matchInto maxParams template path held =
        .ok (Template.matchInto maxParams template path held)) ∧
    (forall contentType : String, (Utf8.encode contentType).length ≤ Buffer.maxSize ->
      boundary? contentType = .ok (Multipart.boundary? contentType)) ∧
    (forall header : Bytes, header.length ≤ Buffer.maxSize ->
      filename? header = .ok (Multipart.filename? header)) ∧
    (forall (boundary : String) (calls : List FormScanner.Call),
      Yields (max (Multipart.marker boundary).length
          (calls.flatMap FormScanner.Call.bytes).length)
        (FormScanner.new boundary >>= fun s => s.answerAll [] calls) fun last =>
          last = (Multipart.Scanner.new boundary).answerAll calls) ∧
    (forall (buffered : Bytes) (contentType : String) (length fileChunk timeout : Nat)
      (source : Incoming),
      (Utf8.encode contentType).length ≤ Buffer.maxSize -> length < Decimal.sizeLimit ->
      Yields (max 1 length) (receive buffered contentType length fileChunk timeout source)
        fun last => exists result,
          Upload.receive buffered contentType length fileChunk timeout source =
            (.done result, last.2) ∧
          last.1 = result.map Intake.saved) ∧
    (forall (maxRequests window size now : Nat) (calls : List RateLimiter.Call),
      Yields (max size 1 * RateLimiter.slotSize)
        (Limiter.withTable maxRequests window size now >>= fun l =>
          l.answerAll (calls.map fun call => (call.client, call.time))) fun answers =>
          answers = (RateLimiter.withTable maxRequests window size now).answers calls) := by
  refine ⟨?_, ?_, ?_, ?_, ?_, ?_, ?_, ?_, ?_⟩
  · intro size source calls
    exact ReadBuffer.yields_answerAll size source calls
  · intro head peer limits isTrusted hfits
    exact decode_eq hfits peer limits isTrusted
  · intro γ _ separator byte isTrimmed limit held text hbyte hseparator hfits
    exact splitPairs_eq hbyte hseparator isTrimmed limit held hfits
  · intro maxParams template path held htemplate hpath
    exact matchInto_eq maxParams htemplate hpath held
  · intro contentType hfits
    exact boundary?_eq hfits
  · intro header hfits
    exact filename?_eq hfits
  · intro boundary calls
    exact FormScanner.yields_answerAll boundary calls
  · intro buffered contentType length fileChunk timeout source hfits hlength
    exact yields_receive buffered hfits hlength fileChunk timeout source
  · intro maxRequests window size now calls
    exact Limiter.yields_answerAll maxRequests window size now calls

theorem never_slips_small :
    decode [13, 10] ⟨.v4 127 0 0 1, 80, 0⟩ {} false = .ok (.error .badRequest) ∧
    splitPairs 59 true 1 (#[] : Array Pair) " é=ü; a=b".toList = .ok #[("é", "ü")] ∧
    matchInto 1 "/{é}" "/ü" #[] = .ok (true, #[("é", "ü")]) ∧
    boundary? "multipart/form-data; boundary=é" = .ok (some "é") ∧
    filename? (Utf8.encode "filename=\"é\"") = .ok (some "é") ∧
    exists last, receive [] "" 0 0 0 ⟨[], 0⟩ = .ok last := by
  rcases never_slips with ⟨_, hdecode, hpairs, hmatch, hboundary, hfilename, _, hreceive, _⟩
  refine ⟨?_, ?_, ?_, ?_, ?_, ?_⟩
  · rw [hdecode _ _ _ _ (by decide)]
    rfl
  · rw [hpairs (Array Pair) ';' 59 true 1 #[] _ (by decide) (by decide) (by decide)]
    decide +kernel
  · rw [hmatch _ _ _ _ (by decide) (by decide)]
    decide +kernel
  · rw [hboundary _ (by decide)]
    decide +kernel
  · rw [hfilename _ (by decide)]
    decide +kernel
  · rcases hreceive [] "" 0 0 0 ⟨[], 0⟩ (by decide) (by decide) with ⟨_, hlarge⟩ | ⟨last, hrun, _⟩
    · exact absurd hlarge (by decide)
    · exact ⟨last, hrun⟩

end Machine
end HttpEngine
