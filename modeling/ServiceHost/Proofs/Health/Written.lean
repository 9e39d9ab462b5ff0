import ServiceHost.Health.Status
import ServiceHost.Proofs.Payload.RoundTrip

/-!
# Written statuses — health checks travel and arrive

A result is an object that is tagged by its first member, so its reader knows what it reads before
it comes to the reason; a status is a list of results inside an object. Each opens one bracket, and
the list another one, so **a status needs three levels of the many that there are**. With the
scalars and containers this makes the round trip of every payload of the host (`read_write`).
-/

set_option autoImplicit false

namespace ServiceHost

namespace CheckResult

variable {levels : Nat}

theorem readTag_tag {text : String} {tag : Tag} {rest : List Char} (hrest : Json.Ends rest)
    (h : text = "success" ∧ tag = .success ∨ text = "failed" ∧ tag = .failed) :
    readTag levels (Json.stringText text ++ rest) = .ok (tag, rest) := by
  have hread : Payload.reader levels (Json.stringText text ++ rest) = .ok (text, rest) :=
    (Payload.readsAs_string levels text).reads rest hrest
  rw [readTag, hread]
  rcases h with ⟨rfl, rfl⟩ | ⟨rfl, rfl⟩ <;> rfl

theorem takesMember_status {result : CheckResult} {tag : Tag}
    (h : result.tag = "success" ∧ tag = .success ∨ result.tag = "failed" ∧ tag = .failed) :
    Json.TakesMember (readMember levels) (none, []) ("status", .string result.tag)
      (some tag, []) := by
  intro rest hrest
  show (readTag levels (Json.stringText result.tag ++ rest) >>= fun read =>
    .ok ((some read.1, []), read.2)) = _
  rw [readTag_tag hrest h]
  rfl

theorem readValue_string (levels : Nat) (text : String) (rest : List Char) :
    Json.readValue levels (Json.stringText text ++ rest) = .ok (.string text, rest) := by
  have hread := Json.readStringRest_written text rest
  rw [Json.stringText_append]
  unfold Json.readValue
  show (Json.readStringRest _).map _ = _
  rw [hread]
  rfl

theorem takesMember_reason (reason : String) :
    Json.TakesMember (readMember levels) (some .failed, []) ("reason", .string reason)
      (some .failed, [("reason", .string reason)]) := by
  intro rest _
  show (Json.readValue levels (Json.stringText reason ++ rest) >>= fun read =>
    .ok ((some Tag.failed, [("reason", read.1)]), read.2)) = _
  rw [readValue_string]
  rfl

/-- A result opens one bracket. -/
theorem readsAs_checkResult (levels : Nat) (result : CheckResult) :
    Payload.ReadsAs (levels + 1) result result where
  starts := by cases result <;> exact Json.starts_cons (by decide) (by decide)
  reads rest _ := by
    cases result with
    | success =>
      have halong : Json.Along (Json.TakesMember (readMember levels)) (none, [])
          [("status", .string success.tag)] (some .success, []) :=
        .cons (takesMember_status (.inl ⟨rfl, rfl⟩)) (.nil _)
      have hread := Json.foldMembers_membersText halong rest
      show readMembers levels (Json.membersText _ ++ rest) = _
      rw [readMembers, hread]
      rfl
    | failed reason =>
      have halong : Json.Along (Json.TakesMember (readMember levels)) (none, [])
          [("status", .string (failed reason).tag), ("reason", .string reason)]
          (some .failed, [("reason", .string reason)]) :=
        .cons (takesMember_status (.inr ⟨rfl, rfl⟩)) (.cons (takesMember_reason reason) (.nil _))
      have hread := Json.foldMembers_membersText halong rest
      show readMembers levels (Json.membersText _ ++ rest) = _
      rw [readMembers, hread]
      rfl

end CheckResult

namespace HealthStatus

theorem takesMember_results (levels : Nat) (results : List CheckResult) :
    Json.TakesMember (readMember (levels + 2)) none ("results", Payload.toJson results)
      (some results) := by
  intro rest hrest
  have hresults := (Payload.readsAs_list fun result (_ : result ∈ results) =>
    CheckResult.readsAs_checkResult levels result).reads rest hrest
  show (Payload.reader (levels + 2) ((Payload.toJson results).text ++ rest) >>= fun read =>
    .ok (some read.1, read.2)) = _
  rw [hresults]
  rfl

/-- A status opens three brackets: its own, that of the list, and that of a result. -/
theorem readsAs_healthStatus (levels : Nat) (status : HealthStatus) :
    Payload.ReadsAs (levels + 3) status status where
  starts := Json.starts_cons (by decide) (by decide)
  reads rest _ := by
    have halong : Json.Along (Json.TakesMember (readMember (levels + 2))) none
        [("results", Payload.toJson status.results)] (some status.results) :=
      .cons (takesMember_results levels status.results) (.nil _)
    have hread := Json.foldMembers_membersText halong rest
    show readMembers (levels + 2) (Json.membersText _ ++ rest) = _
    rw [readMembers, hread]

/-- The written form of a status: its results in order, each tagged by how it came out. -/
example : Payload.write ({ results := [.failed "db down"] } : HealthStatus) =
    "\x7b\"results\":[\x7b\"status\":\"failed\",\"reason\":\"db down\"\x7d]\x7d" := by
  decide

end HealthStatus

namespace Payload

/-- **Reading undoes writing**, for every kind of payload that a host has. -/
theorem read_write :
    (∀ status : HealthStatus, read HealthStatus (write status) = .ok status) ∧
    (∀ result : CheckResult, read CheckResult (write result) = .ok result) ∧
    (∀ text : String, read String (write text) = .ok text) ∧
    (∀ text : Option String, read (Option String) (write text) = .ok text) ∧
    (∀ n : Int64, read Int64 (write n) = .ok n) ∧
    (∀ n : UInt64, read UInt64 (write n) = .ok n) ∧
    (∀ items : List Int64, read (List Int64) (write items) = .ok items) ∧
    ∀ members : Std.TreeMap String UInt32, ∃ back : Std.TreeMap String UInt32,
      read (Std.TreeMap String UInt32) (write members) = .ok back ∧ back.toList = members.toList := by
  refine ⟨?_, ?_, ?_, ?_, ?_, ?_, ?_, ?_⟩
  · exact fun status => (HealthStatus.readsAs_healthStatus 124 status).read_whole
  · exact fun result => (CheckResult.readsAs_checkResult 126 result).read_whole
  · exact fun text => (readsAs_string _ text).read_whole
  · rintro (_ | text)
    · exact (readsAs_none _).read_whole
    · refine ((readsAs_string _ text).some ?_).read_whole
      show some '"' ≠ some 'n'
      decide
  · exact fun n => (readsAs_int64 _ n).read_whole
  · exact fun n => (readsAs_uint64 _ n).read_whole
  · intro items
    have hitems : ReadsAs (126 + 1) items items := readsAs_list fun item _ => readsAs_int64 126 item
    exact hitems.read_whole
  · intro members
    obtain ⟨back, hback, hlist⟩ : ∃ back, ReadsAs (126 + 1) members back ∧ _ :=
      exists_readsAs_map fun entry _ => readsAs_uint32 126 entry.2
    exact ⟨back, hback.read_whole, hlist⟩

end Payload

end ServiceHost
