import Mathlib.Data.List.Basic
import HttpEngine.Connection
import HttpEngine.Proofs.Decimal.Sizes
import HttpEngine.Proofs.Request.Decoding
import HttpEngine.Proofs.Request.Pairs
import HttpEngine.Proofs.Text.Encoding

/-!
# Lines that hold further lines

An entry of the access log ends with a line feed.  It is one line only if no part of it brings a
line feed of its own.  Methods, versions, numbers, times and addresses of clients never do, but
the path, the user agent and a forwarded address come from the head as they are, and a head is cut
into lines only where a carriage return stands before the line feed.
-/

namespace HttpEngine

def newlines (text : String) : Nat :=
  (Utf8.encode text).count 10

theorem newlines_append (a b : String) : newlines (a ++ b) = newlines a + newlines b := by
  rw [newlines, Utf8.encode_append, List.count_append]
  rfl

theorem newlines_eq_zero_iff {text : String} : newlines text = 0 ↔ '\n' ∉ text.toList := by
  rw [newlines, List.count_eq_zero]
  exact not_congr (Utf8.mem_encodeChars_iff (by decide) (by decide))

/-! # Texts that are one line -/

theorem newline_notMem_toDigits {base : Nat} (hbase : 1 < base) (n : Nat) :
    '\n' ∉ Nat.toDigits base n :=
  Decimal.notMem_toDigits (fun d => Nat.digitChar_ne '\n' (by decide)) hbase n

theorem newlines_repr (n : Nat) : newlines n.repr = 0 := by
  rw [newlines_eq_zero_iff, Nat.repr_eq_ofList_toDigits, String.toList_ofList]
  exact newline_notMem_toDigits (by omega) n

theorem newlines_padded (width n : Nat) : newlines (Decimal.padded width n) = 0 := by
  rw [newlines_eq_zero_iff, Decimal.padded, String.toList_ofList, List.leftpad, List.mem_append,
    not_or, List.mem_replicate]
  exact ⟨fun h => absurd h.right (by decide), newline_notMem_toDigits (by omega) n⟩

theorem newlines_token (method : Method) : newlines method.token = 0 := by
  cases method <;> decide

theorem newlines_version (version : Version) : newlines version.token = 0 := by
  cases version <;> decide

theorem newlines_time (time : UtcTime) : newlines time.text = 0 := by
  simp only [UtcTime.text, newlines_append, newlines_padded]
  decide

theorem newlines_dotted (a b c d : UInt8) : newlines (IpAddress.dotted a b c d) = 0 := by
  simp only [IpAddress.dotted, toString, newlines_append, newlines_repr]
  decide

theorem newlines_joinGroups (groups : List UInt16) :
    newlines (IpAddress.joinGroups groups) = 0 := by
  rw [newlines_eq_zero_iff, IpAddress.joinGroups, String.toList_intercalate]
  apply Pairs.not_mem_intercalate (by decide)
  intro text htext
  rw [List.map_map] at htext
  rcases List.mem_map.mp htext with ⟨group, _, hgroup⟩
  rw [← hgroup, Function.comp_apply, IpAddress.hexGroup, String.toList_ofList]
  exact newline_notMem_toDigits (by omega) group.toNat

theorem newlines_groupsText (groups : List UInt16) :
    newlines (IpAddress.groupsText groups) = 0 := by
  have hgap : newlines "::" = 0 := by decide
  have hmapped : newlines "::ffff:" = 0 := by decide
  unfold IpAddress.groupsText
  split
  · rw [newlines_append, newlines_dotted, hmapped]
  · split
    split
    · simp only [newlines_append, newlines_joinGroups, hgap]
    · exact newlines_joinGroups _

theorem newlines_address (address : IpAddress) : newlines address.text = 0 := by
  cases address with
  | v4 a b c d => exact newlines_dotted a b c d
  | v6 groups => exact newlines_groupsText groups

/-! # Entries -/

theorem LogEntry.newlines_text (e : LogEntry) (time : UtcTime) :
    newlines (e.text time) =
      newlines e.clientIp + newlines e.method + newlines e.path + newlines e.protocol +
        newlines e.userAgent + 1 := by
  have hnewline : newlines "ms\n" = 1 := by decide
  have hmarks : newlines " [" = 0 ∧ newlines " +0000] \"" = 0 ∧ newlines " " = 0 ∧
      newlines "\" " = 0 ∧ newlines " \"" = 0 := by decide
  rcases hmarks with ⟨hopen, hzone, hspace, hclose, hquote⟩
  simp only [text, toString, newlines_append, newlines_time, newlines_repr, hnewline, hopen, hzone,
    hspace, hclose, hquote]
  omega

theorem LogEntry.getLast?_text (e : LogEntry) (time : UtcTime) :
    (Utf8.encode (e.text time)).getLast? = some 10 := by
  have hsplit : exists front : String, e.text time = front ++ "ms\n" :=
    ⟨_, String.append_assoc.symm⟩
  have hend : Utf8.encode "ms\n" = [109, 115, 10] := by decide
  rcases hsplit with ⟨front, hfront⟩
  rw [hfront, Utf8.encode_append, hend, List.getLast?_append]
  rfl

theorem LogQueue.line_of_record {queue : LogQueue} {entry : LogEntry} {time : Nat} {line : LogLine}
    (h : (queue.record entry time).1.lines = queue.lines ++ [line]) :
    line = entry.line (.ofUnix time) := by
  unfold record at h
  split at h
  · exact absurd h (by simp)
  · split at h
    · exact absurd h (by simp)
    · exact (List.singleton_inj.mp (List.append_cancel_left h)).symm

namespace Connection

/--
What is queued for a request ends with a line feed and has as many more of them as the client's
address, the path and the user agent have.  It is one line exactly if these three have none; the
address has none unless it is a trusted one from the head.
-/
theorem newlines_of_recorded {head : Bytes} {peer : SocketAddress} {limits : RequestLimits}
    {isTrusted : Bool} {request : Request}
    (hdecode : Request.decode head peer limits isTrusted = .ok request) (response : Response)
    (elapsed : Nat) (queue : LogQueue) (time : Nat) {line : LogLine}
    (hline : (queue.record (servedEntry request response elapsed) time).1.lines =
      queue.lines ++ [line]) :
    (Utf8.encode line.text).getLast? = some 10 ∧
    newlines line.text = newlines request.clientIp + newlines request.path +
      newlines (request.userAgent?.getD "-") + 1 ∧
    (newlines line.text = 1 ↔
      '\n' ∉ request.clientIp.toList ∧ '\n' ∉ request.path.toList ∧
        forall agent, request.userAgent? = some agent -> '\n' ∉ agent.toList) ∧
    (isTrusted = false -> newlines request.clientIp = 0) := by
  have hcount : newlines line.text = newlines request.clientIp + newlines request.path +
      newlines (request.userAgent?.getD "-") + 1 := by
    rw [LogQueue.line_of_record hline]
    change newlines (LogEntry.text _ _) = _
    rw [LogEntry.newlines_text]
    simp only [servedEntry, newlines_token, newlines_version]
    omega
  refine ⟨?_, hcount, ?_, ?_⟩
  · rw [LogQueue.line_of_record hline]
    exact LogEntry.getLast?_text _ _
  · have hagent : newlines (request.userAgent?.getD "-") = 0 ↔
        forall agent, request.userAgent? = some agent -> '\n' ∉ agent.toList := by
      cases request.userAgent? with
      | none => exact iff_of_true (by decide) (by simp)
      | some agent => simp [newlines_eq_zero_iff]
    rw [← newlines_eq_zero_iff, ← newlines_eq_zero_iff, ← hagent, hcount]
    omega
  · intro huntrusted
    rw [huntrusted] at hdecode
    rw [(Request.fresh_of_decode hdecode).clientIp_of_untrusted]
    exact newlines_address peer.ip

/-! # A path that splits its line -/

def splitRequest : Request where
  method := .get
  path := "/a\nb"
  version := .http11
  headers := []
  query := []
  cookies := []
  params := []
  contentLength := 0
  body := none
  upload := none
  clientIp := "10.0.0.7"
  clientAddress := ⟨.v4 10 0 0 7, 5555, 0⟩
  error := none
  context := none

theorem newlines_of_recorded_split :
    let queue := LogQueue.new 8
    let line := (servedEntry splitRequest .noContent 0).line (.ofUnix 0)
    Request.decode (Utf8.encode "GET /a\nb HTTP/1.1\r\n\r\n") ⟨.v4 10 0 0 7, 5555, 0⟩ {} false =
      .ok splitRequest ∧
    (queue.record (servedEntry splitRequest .noContent 0) 0).1.lines = queue.lines ++ [line] ∧
    newlines line.text = newlines "/a\nb" + 1 := by
  intro queue line
  have hdecode : Request.decode (Utf8.encode "GET /a\nb HTTP/1.1\r\n\r\n")
      ⟨.v4 10 0 0 7, 5555, 0⟩ {} false = .ok splitRequest := by
    decide +kernel
  have hline : (queue.record (servedEntry splitRequest .noContent 0) 0).1.lines =
      queue.lines ++ [line] := rfl
  have hcount := (newlines_of_recorded hdecode .noContent 0 queue 0 hline).right.left
  have hnone : newlines splitRequest.clientIp = 0 ∧
      newlines (splitRequest.userAgent?.getD "-") = 0 := by
    decide +kernel
  rw [hnone.left, hnone.right] at hcount
  refine ⟨hdecode, hline, ?_⟩
  rw [hcount, Nat.zero_add]
  rfl

theorem two_lines_for_one_request :
    exists request : Request,
      Request.decode (Utf8.encode "GET /a\nb HTTP/1.1\r\n\r\n") ⟨.v4 10 0 0 7, 5555, 0⟩ {} false =
        .ok request ∧
      newlines ((servedEntry request .noContent 0).line (.ofUnix 0)).text = 2 :=
  ⟨splitRequest, by decide +kernel, by decide +kernel⟩

end Connection
end HttpEngine
