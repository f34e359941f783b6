/-
  CallFeed — what a caller over HTTP reads of a refusal.

  * `messageIn?` is the message that a caller finds in the headers of a response;
  * `ReadBack`: the headers carry the status, and its message is read as if it were a written form
    itself, which alters it if it is for a path with an escape;
  * `refusal_read_back`: this is what becomes of every call that is refused, whereas the other ways
    of calling are answered with the status itself.
-/
import CallFeed.Proofs.Session.Layer
import CallFeed.Proofs.Session.Unseen
import CallFeed.Proofs.Text.Encoding

namespace CallFeed

open Text (HasEscape percentDecode percentEncode)

/-! ## Messages in headers -/

/-- The message in the headers of a response, if there is one that can be read. -/
def messageIn? (headers : List (String × String)) : Option String :=
  (headers.lookup "grpc-message").bind percentDecode

theorem messageIn?_headers {st : Status} (hm : st.message ≠ "") :
    messageIn? st.headers = percentDecode st.message := by
  have hlookup : st.headers.lookup "grpc-message" = some (percentEncode st.message) := by
    unfold Status.headers
    rw [if_neg hm]
    rfl
  rw [messageIn?, hlookup, Option.bind_some, Text.percentDecode_percentEncode]

/-- The message of a status is read in its headers just if it has no escape. -/
theorem messageIn?_headers_eq_some_iff {st : Status} (hm : st.message ≠ "") :
    messageIn? st.headers = some st.message ↔ ¬ HasEscape st.message.toList := by
  rw [messageIn?_headers hm, ← Text.percentDecode_percentEncode,
    Text.percentDecode_percentEncode_iff]

/-! ## Refusals -/

namespace Fault

/-- The message for a method has the escapes of the method. -/
theorem hasEscape_permissionDenied (consumer method : String) :
    HasEscape (permissionDenied consumer method).clientMessage.toList ↔
      HasEscape method.toList := by
  have hno : '%' ∉ "Permission denied for ".toList := by decide
  have hm : (permissionDenied consumer method).clientMessage =
      "Permission denied for " ++ method := rfl
  rw [hm, String.toList_append, Text.hasEscape_append_iff hno]

theorem not_hasEscape_unauthenticated (reason : String) :
    ¬ HasEscape (unauthenticated reason).clientMessage.toList := by
  have hno : '%' ∉ (unauthenticated reason).clientMessage.toList := by
    show '%' ∉ "Missing or invalid consumer metadata".toList
    decide
  exact Text.not_hasEscape_of_not_mem hno

end Fault

namespace Session

/-- What a caller reads in the headers of a response, who is refused for `f` a call of the
    method. -/
structure ReadBack (f : Fault) (method : String) (headers : List (String × String)) : Prop where
  form : HttpForm f.status headers
  /-- The path is part of the message as it was sent. -/
  verbatim : ∀ consumer m, f = .permissionDenied consumer m →
    m = method ∧ f.clientMessage = "Permission denied for " ++ method
  /-- An escape in the message is taken for an encoded byte. -/
  read : messageIn? headers = percentDecode f.clientMessage
  intact : messageIn? headers = some f.clientMessage ↔
    ∀ consumer m, f = .permissionDenied consumer m → ¬ HasEscape method.toList

theorem readBack_headers {service : Service} {headers : List Header} {method : String} {f : Fault}
    (hf : service.authorize headers method = .error f) : ReadBack f method f.status.headers := by
  rcases Service.authorize_eq_error hf with ⟨reason, rfl⟩ | ⟨consumer, rfl⟩
  · have hm : (Fault.unauthenticated reason).status.message ≠ "" := by
      show "Missing or invalid consumer metadata" ≠ ""
      decide
    refine ⟨httpForm_headers _, nofun, messageIn?_headers hm, ?_⟩
    refine (messageIn?_headers_eq_some_iff hm).trans ?_
    exact iff_of_true (Fault.not_hasEscape_unauthenticated reason) nofun
  · have hm : (Fault.permissionDenied consumer method).status.message ≠ "" := by
      show "Permission denied for " ++ method ≠ ""
      simp
    refine ⟨httpForm_headers _, ?_, messageIn?_headers hm, ?_⟩
    · rintro _ _ ⟨⟩
      exact ⟨rfl, rfl⟩
    · refine (messageIn?_headers_eq_some_iff hm).trans ?_
      refine (not_congr (Fault.hasEscape_permissionDenied consumer method)).trans ?_
      constructor
      · rintro hno _ _ ⟨⟩
        exact hno
      · exact fun hno => hno _ _ rfl

variable {α : Type}

/-- **A caller over HTTP reads the message of a refusal, unless the path has an escape.** Whatever
    goes on in the service and whatever is asked for: a call that is refused is answered with the
    status of the cause on any of the ways, and over HTTP with a response that carries it. The
    code in it is that of the status, and what is read as its message is the message if no path
    with an escape is in it. Otherwise each escape of the path has become the byte it stands
    for, and if the bytes are not UTF-8, nothing can be read. -/
theorem refusal_read_back (s : Session α) (r : HttpRequest) (inner : Inner) {f : Fault}
    (hf : s.service.authorize r.headers r.target.method = .error f) :
    (∀ (way : Request α) refused, way.Seeks r.headers r.target.method refused →
      (s.perform (.call none way)).2 =
        .called (callNumber s.calls.length) (some (refused f.status))) ∧
    ∃ headers, (s.perform (.call none (.http r inner))).2 =
        .called (callNumber s.calls.length) (some (.response headers none)) ∧
      ReadBack f r.target.method headers := by
  have hreply : ∀ (way : Request α) refused, way.Seeks r.headers r.target.method refused →
      (s.perform (.call none way)).2 =
        .called (callNumber s.calls.length) (some (refused f.status)) := by
    intro way refused hway
    rw [Service.status_of_refusal hf]
    exact reply_of_refusal hway hf
  exact ⟨hreply, f.status.headers, hreply _ _ .http, readBack_headers hf⟩

/-- A request of `x` with the given target. -/
def errand (target : Target) : HttpRequest := ⟨target, [⟨consumerHeader, [0x78]⟩], none, ""⟩

/-- A percent sign is read back if no two digits are behind it, and letters outside ASCII are. -/
theorem refusal_read_back_percent : ∃ (s : Session Unit) (headers : List (String × String)),
    smallOrigin.open? broad = some s ∧ Target.read "/b/é%4" = some (.path "/b/é%4") ∧
    s.service.authorize (errand (.path "/b/é%4")).headers "/b/é%4" =
      .error (.permissionDenied "x" "/b/é%4") ∧
    (s.perform (.call none (.http (errand (.path "/b/é%4")) .accepts))).2 =
      .called 1 (some (.response headers none)) ∧
    ("grpc-message", "Permission%20denied%20for%20/b/%C3%A9%4") ∈ headers ∧
    ("grpc-status", "7") ∈ headers ∧
    messageIn? headers = some "Permission denied for /b/é%4" := by
  obtain ⟨s, ho⟩ : ∃ s : Session Unit, smallOrigin.open? broad = some s := ⟨_, rfl⟩
  have hidentify : identify (errand (.path "/b/é%4")).headers = .ok "x" := rfl
  have hgrants : s.service.access.grants "x" "/b/é%4" = false := by
    rw [Origin.access_open? ho]
    rfl
  have hf := Service.authorize_of_not_grants hidentify hgrants
  obtain ⟨-, headers, hresponse, hread⟩ :=
    refusal_read_back s (errand (.path "/b/é%4")) .accepts hf
  have hlength : s.calls.length = 0 := by
    cases ho
    rfl
  rw [hlength] at hresponse
  have hno : ¬ HasEscape "/b/é%4".toList := Text.percentBytes_eq_iff.1 (by decide)
  refine ⟨s, headers, ho, by decide, hf, hresponse, ?_, hread.form.code, ?_⟩
  · refine (hread.form.message _).2 ⟨by decide, ?_⟩
    decide
  · exact hread.intact.2 fun _ _ _ => hno

/-- Not every refusal is read back: two digits behind a percent sign are read as a byte. -/
theorem refusal_not_always_read : ¬ ∀ (s : Session Unit) (g : List Telling) (text : String)
    (target : Target) (f : Fault) (headers : List (String × String)), Reached s g →
      Target.read text = some target →
      s.service.authorize (errand target).headers target.method = .error f →
      (s.perform (.call none (.http (errand target) .accepts))).2 =
        .called (callNumber s.calls.length) (some (.response headers none)) →
      messageIn? headers = some f.clientMessage := by
  intro hall
  have ho : (Session.open? broad ⟨4, 4, some 5⟩ {} : Option (Session Unit)) = some _ := rfl
  have hread := hall _ _ "/b/%41" (.path "/b/%41") (.permissionDenied "x" "/b/%41") _
    (reached_open? ho).1 (by decide) rfl rfl
  have hm : (Fault.permissionDenied "x" "/b/%41").status.message ≠ "" := by decide
  have hpath : HasEscape "/b/%41".toList :=
    ⟨"/b/".toList, "%41".toList, by decide, '4', '1', [], 4, 1, by decide,
      .decimal (by decide) (by decide), .decimal (by decide) (by decide)⟩
  exact (messageIn?_headers_eq_some_iff hm).1 hread
    ((Fault.hasEscape_permissionDenied "x" "/b/%41").2 hpath)

end Session

end CallFeed
