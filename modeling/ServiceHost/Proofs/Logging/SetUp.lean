import ServiceHost.Logging.ProcessLog
import ServiceHost.Proofs.Passes

/-!
# Setting up — the first request that succeeds decides

Requests for the process log are a history: each meets what is set up by then, and what earlier
starts, also those that failed, have made of the world. A request is understood if its texts name a
level and a directory (`Asks`), and **the first one that is understood and whose log starts is the
only one that counts** (`FirstToStart`). Nothing is set up before it, whatever failed; its own log
agrees with it; and behind it neither the log nor the world changes, while a request is accepted
exactly if it asks for the same once more, in whatever spelling (`Repeats`).
-/

set_option autoImplicit false

namespace ServiceHost

/-! ## What is asked for -/

/-- The words for a level, in lower case. -/
def LogLevel.words : LogLevel → List String
  | .error => ["error"]
  | .warn => ["warn", "warning"]
  | .info => ["info"]
  | .debug => ["debug"]
  | .trace => ["trace"]

/-- A text names a level by one of its words, between blanks and in any case of ASCII letters. -/
def LogLevel.NamedBy (level : LogLevel) (text : String) : Prop :=
  (Text.trim text).map Char.toLower ∈ level.words

theorem LogLevel.ofName?_eq_some_iff {name : String} {level : LogLevel} :
    ofName? name = some level ↔ name.map Char.toLower ∈ level.words := by
  unfold ofName?
  dsimp only
  generalize name.map Char.toLower = word
  constructor
  · intro h
    split at h
    · rename_i hword
      cases h
      exact hword ▸ by decide
    · have hname := List.find?_some h
      rw [decide_eq_true_eq] at hname
      subst hname
      cases level <;> decide
  · intro h
    cases level with
    | warn =>
      rcases List.mem_cons.mp h with rfl | h
      · rfl
      · obtain rfl := List.mem_singleton.mp h
        rfl
    | _ =>
      obtain rfl := List.mem_singleton.mp h
      rfl

namespace ProcessLog

/-- What a process asks of its log: the text of a level and, if it has one, of a directory. -/
structure Request where
  level : String
  directory : Option String

/-- A text is that of a directory: an absolute path between blanks. -/
def IsDirectory (text : String) : Prop :=
  ∃ rest, (Text.trim text).toList = '/' :: rest

/-- The log that a request asks for. -/
structure Asks (request : Request) (log : ProcessLog) : Prop where
  level : log.level.NamedBy request.level
  destination : log.destination = request.directory.map Text.trim
  directory : ∀ text ∈ request.directory, IsDirectory text

/-- A log writes to where a request wants it: to no directory, or to an equal path. -/
inductive SamePlace : LogDestination → Option String → Prop where
  | standardError : SamePlace none none
  | directory {path : Path} {text : String} (h : IsDirectory text)
    (hsame : path.same (Text.trim text) = true) : SamePlace (some path) (some text)

/-- The request asks for this log once more, in whatever spelling. -/
structure Repeats (request : Request) (log : ProcessLog) : Prop where
  level : log.level.NamedBy request.level
  place : SamePlace log.destination request.directory

variable {text : String} {path : Path} {level : LogLevel} {log requested : ProcessLog}
  {asked : Request}

theorem readLevel_eq_ok_iff : readLevel text = .ok level ↔ level.NamedBy text := by
  rw [LogLevel.NamedBy, ← LogLevel.ofName?_eq_some_iff, readLevel]
  cases LogLevel.ofName? (Text.trim text) <;> simp

theorem readDirectory_eq_ok_iff :
    readDirectory text = .ok path ↔ IsDirectory text ∧ path = Text.trim text := by
  have habsolute : Path.isAbsolute (Text.trim text) = true ↔ IsDirectory text := by
    rw [Path.isAbsolute, List.isPrefixOf_iff_prefix, IsDirectory]
    exact ⟨fun ⟨rest, h⟩ => ⟨rest, h.symm⟩, fun ⟨rest, h⟩ => ⟨rest, h.symm⟩⟩
  rw [← habsolute, readDirectory]
  split
  · rename_i hempty
    rw [hempty]
    refine iff_of_false (fun h => by cases h) (fun h => ?_)
    exact absurd h.1 (by decide)
  · split
    · rename_i h
      simp [h, eq_comm]
    · rename_i h
      simp [h]

theorem mapM_readDirectory_eq_ok_iff {directory : Option String} {destination : LogDestination} :
    directory.mapM readDirectory = .ok destination ↔
      destination = directory.map Text.trim ∧ ∀ text ∈ directory, IsDirectory text := by
  cases directory with
  | none => simp [pure, Except.pure, eq_comm]
  | some text =>
    simp only [Option.mapM_some, map_eq_pure_bind, bind_eq_ok_iff, readDirectory_eq_ok_iff, pure,
      Except.pure, Except.ok.injEq, Option.map_some, Option.mem_def, Option.some.injEq, forall_eq']
    constructor
    · rintro ⟨path, ⟨hdirectory, rfl⟩, rfl⟩
      exact ⟨rfl, hdirectory⟩
    · rintro ⟨rfl, hdirectory⟩
      exact ⟨_, ⟨hdirectory, rfl⟩, rfl⟩

/-- A request is understood as the log that it asks for. -/
theorem request_eq_ok_iff : request asked.level asked.directory = .ok log ↔ Asks asked log := by
  rw [request, bind_eq_ok_iff]
  simp only [bind_eq_ok_iff, readLevel_eq_ok_iff, mapM_readDirectory_eq_ok_iff]
  constructor
  · rintro ⟨level, hlevel, destination, ⟨hplace, hdirectory⟩, hlog⟩
    cases hlog
    exact ⟨hlevel, hplace, hdirectory⟩
  · rintro ⟨hlevel, hplace, hdirectory⟩
    exact ⟨_, hlevel, _, ⟨hplace, hdirectory⟩, rfl⟩

theorem same_refl (path : Path) : path.same path = true := by
  simp [Path.same]

/-- A destination is the same one exactly if it is an equal path, or none in both. -/
theorem sameDestination_iff {destination : LogDestination} {directory : Option String}
    (h : ∀ text ∈ directory, IsDirectory text) :
    sameDestination destination (directory.map Text.trim) = true ↔
      SamePlace destination directory := by
  cases destination with
  | none =>
    cases directory with
    | none => exact iff_of_true rfl .standardError
    | some text => exact iff_of_false Bool.false_ne_true (fun h => by cases h)
  | some path =>
    cases directory with
    | none => exact iff_of_false Bool.false_ne_true (fun h => by cases h)
    | some text =>
      constructor
      · exact fun hsame => .directory (h text rfl) hsame
      · intro hplace
        cases hplace with
        | directory _ hsame => exact hsame

theorem accept_eq_ok_iff : log.accept requested = .ok () ↔
    sameDestination log.destination requested.destination = true ∧ log.level = requested.level := by
  rw [accept]
  cases hplace : sameDestination log.destination requested.destination with
  | false => exact iff_of_false (fun h => by cases h) (fun h => by cases h.1)
  | true =>
    by_cases hlevel : log.level = requested.level
    · simp [hlevel]
    · simp [hlevel]

theorem accept_asked_eq_ok_iff (h : Asks asked requested) :
    log.accept requested = .ok () ↔ Repeats asked log := by
  rw [accept_eq_ok_iff, h.destination, sameDestination_iff h.directory]
  constructor
  · rintro ⟨hplace, hlevel⟩
    exact ⟨hlevel ▸ h.level, hplace⟩
  · rintro ⟨hlevel, hplace⟩
    refine ⟨hplace, ?_⟩
    -- A text names one level at most.
    have hone := (readLevel_eq_ok_iff.mpr hlevel).symm.trans (readLevel_eq_ok_iff.mpr h.level)
    exact Except.ok.inj hone

/-- **A log that was asked for agrees with its own request.** -/
theorem Asks.repeats (h : Asks asked log) : Repeats asked log := by
  refine ⟨h.level, ?_⟩
  rw [← sameDestination_iff h.directory, ← h.destination]
  cases log.destination with
  | none => rfl
  | some path => exact same_refl path

theorem SamePlace.isDirectory {destination : LogDestination} {directory : Option String}
    (h : SamePlace destination directory) : ∀ text ∈ directory, IsDirectory text := by
  cases h with
  | standardError => simp
  | directory hdirectory _ => simpa using hdirectory

/-- Only a request that is understood can ask for a log once more. -/
theorem Repeats.exists_asks (h : Repeats asked log) : ∃ requested, Asks asked requested :=
  ⟨⟨log.level, asked.directory.map Text.trim⟩, h.level, rfl, h.place.isDirectory⟩

/-! ## One request -/

section History

variable {σ : Type} (start : ProcessLog → StateM σ (Except LogError Unit))

/-- The answer to a request, and what is set up and what the world is after it. -/
def serve (found : Option ProcessLog × σ) (asked : Request) :
    Except LogError ProcessLog × Option ProcessLog × σ :=
  let ((reply, left), world) := (answer start found.1 asked.level asked.directory).run found.2
  (reply, left, world)

/-- A request that is not understood is refused, whatever is set up. -/
theorem serve_of_error {error : LogError}
    (h : request asked.level asked.directory = .error error) (found : Option ProcessLog × σ) :
    serve start found asked = (.error error, found) := by
  rw [serve, answer, h]
  rfl

/-- One that is understood meets the log that is set up. -/
theorem serve_set (h : Asks asked requested) (log : ProcessLog) (world : σ) :
    serve start (some log, world) asked =
      ((log.accept requested).map fun () => log, some log, world) := by
  rw [serve, answer, request_eq_ok_iff.mpr h]
  rfl

/-- Or else it starts its own, and then meets that. -/
theorem serve_unset (h : Asks asked requested) (world : σ) :
    serve start (none, world) asked =
      match (start requested).run world with
      | (.ok (), left) =>
        ((requested.accept requested).map fun () => requested, some requested, left)
      | (.error error, left) => (.error error, none, left) := by
  rw [serve, answer, request_eq_ok_iff.mpr h]
  simp only [getOrStart, StateT.run_bind]
  match (start requested).run world with
  | (.ok (), left) => rfl
  | (.error error, left) => rfl

/-- A log that is set up answers every request, and nothing is started. -/
theorem serve_of_some (log : ProcessLog) (world : σ) (asked : Request) :
    (serve start (some log, world) asked).2 = (some log, world) ∧
    ((serve start (some log, world) asked).1 = .ok log ↔ Repeats asked log) ∧
    (¬ Repeats asked log → ∃ error, (serve start (some log, world) asked).1 = .error error) := by
  cases hrequest : request asked.level asked.directory with
  | error error =>
    have hnot : ¬ Repeats asked log := by
      intro h
      obtain ⟨requested, hasks⟩ := h.exists_asks
      rw [request_eq_ok_iff.mpr hasks] at hrequest
      cases hrequest
    rw [serve_of_error start hrequest]
    exact ⟨rfl, iff_of_false (fun h => by cases h) hnot, fun _ => ⟨error, rfl⟩⟩
  | ok requested =>
    have hasks := request_eq_ok_iff.mp hrequest
    rw [serve_set start hasks, ← accept_asked_eq_ok_iff hasks]
    cases log.accept requested with
    | error error =>
      exact ⟨rfl, iff_of_false (fun h => by cases h) (fun h => by cases h), fun _ => ⟨error, rfl⟩⟩
    | ok _ => exact ⟨rfl, iff_of_true rfl rfl, fun h => absurd rfl h⟩

/-- The request is understood, and the log that it asks for starts. -/
def Starts (world : σ) (asked : Request) (log : ProcessLog) : Prop :=
  Asks asked log ∧ ((start log).run world).1 = .ok ()

variable {start} {world : σ}

theorem serve_of_starts (h : Starts start world asked log) :
    serve start (none, world) asked = (.ok log, some log, ((start log).run world).2) := by
  obtain ⟨hasks, hstart⟩ := h
  rw [serve_unset start hasks]
  cases hrun : (start log).run world with
  | mk reply left =>
    rw [hrun] at hstart
    obtain rfl : reply = .ok () := hstart
    dsimp only
    rw [(accept_asked_eq_ok_iff hasks).mpr hasks.repeats]
    rfl

theorem serve_of_not_starts (h : ∀ log, ¬ Starts start world asked log) :
    (∃ error, (serve start (none, world) asked).1 = .error error) ∧
      (serve start (none, world) asked).2.1 = none := by
  cases hrequest : request asked.level asked.directory with
  | error error =>
    rw [serve_of_error start hrequest]
    exact ⟨⟨error, rfl⟩, rfl⟩
  | ok requested =>
    have hasks := request_eq_ok_iff.mp hrequest
    rw [serve_unset start hasks]
    cases hrun : (start requested).run world with
    | mk reply left =>
      cases reply with
      | ok _ => exact absurd ⟨hasks, by rw [hrun]⟩ (h requested)
      | error error => exact ⟨⟨error, rfl⟩, rfl⟩

/-! ## All requests -/

variable (start) (world : σ) (requests : List Request)

/-- What the request at a position finds: what is set up by then, and the world. -/
def reached (position : Nat) : Option ProcessLog × σ :=
  (requests.take position).foldl (fun found asked => (serve start found asked).2) (none, world)

/-- The answer to the request at a position. -/
def replyAt? (position : Nat) : Option (Except LogError ProcessLog) :=
  requests[position]?.map fun asked => (serve start (reached start world requests position) asked).1

/-- What is told of the log of the process as the request at a position comes. -/
def statusAt (position : Nat) : Option (String × LogDestination) :=
  (reached start world requests position).1.map status

/-- The request at a position is understood, and the log that it asks for starts. -/
def StartsAt (position : Nat) (log : ProcessLog) : Prop :=
  ∃ asked, requests[position]? = some asked ∧
    Starts start (reached start world requests position).2 asked log

/-- The first request that is understood and whose log starts. -/
structure FirstToStart (position : Nat) (log : ProcessLog) : Prop where
  starts : StartsAt start world requests position log
  none_before : ∀ earlier < position, ∀ other, ¬ StartsAt start world requests earlier other

variable {start world requests} {position later : Nat}

theorem reached_succ (h : requests[position]? = some asked) :
    reached start world requests (position + 1) =
      (serve start (reached start world requests position) asked).2 := by
  unfold reached
  rw [List.take_add_one, h, List.foldl_append]
  rfl

theorem reached_succ_of_none (h : requests[position]? = none) :
    reached start world requests (position + 1) = reached start world requests position := by
  unfold reached
  rw [List.take_add_one, h, Option.toList_none, List.append_nil]

theorem replyAt?_eq (h : requests[position]? = some asked) :
    replyAt? start world requests position =
      some (serve start (reached start world requests position) asked).1 := by
  rw [replyAt?, h, Option.map_some]

/-- **Nothing is set up as long as nothing starts.** -/
theorem nothing_reached
    (h : ∀ earlier < position, ∀ log, ¬ StartsAt start world requests earlier log) :
    (reached start world requests position).1 = none := by
  induction position with
  | zero => rfl
  | succ position ih =>
    have hnone := ih fun earlier hlt => h earlier (Nat.lt_succ_of_lt hlt)
    cases hget : requests[position]? with
    | none => rw [reached_succ_of_none hget, hnone]
    | some asked =>
      have hnot : ∀ log, ¬ Starts start (reached start world requests position).2 asked log :=
        fun log hstarts => h position (Nat.lt_succ_self position) log ⟨asked, hget, hstarts⟩
      have hserve := (serve_of_not_starts hnot).2
      rw [reached_succ hget, ← hserve, ← hnone]

/-- **What is set up stays as it is, and so does the world.** -/
theorem reached_of_le {log : ProcessLog} (hle : position ≤ later)
    (h : (reached start world requests position).1 = some log) :
    reached start world requests later = reached start world requests position := by
  induction hle with
  | refl => rfl
  | @step later _ ih =>
    cases hget : requests[later]? with
    | none => rw [reached_succ_of_none hget, ih]
    | some asked =>
      have hfound : reached start world requests position =
          (some log, (reached start world requests position).2) := by rw [← h]
      rw [reached_succ hget, ih, hfound, (serve_of_some start log _ asked).1]

/-- What the first request that starts, and every one before it, finds. -/
theorem reached_eq (h : ∀ earlier < position, ∀ log, ¬ StartsAt start world requests earlier log) :
    reached start world requests position =
      (none, (reached start world requests position).2) := by
  rw [← nothing_reached h]

theorem refused_of_not_startsAt {reply : Except LogError ProcessLog}
    (h : ∀ earlier ≤ position, ∀ log, ¬ StartsAt start world requests earlier log)
    (hreply : replyAt? start world requests position = some reply) :
    ∃ error, reply = .error error := by
  obtain ⟨asked, hget, rfl⟩ := Option.map_eq_some_iff.mp hreply
  have hnot : ∀ log, ¬ Starts start (reached start world requests position).2 asked log :=
    fun log hstarts => h position (Nat.le_refl position) log ⟨asked, hget, hstarts⟩
  rw [reached_eq fun earlier hlt => h earlier (Nat.le_of_lt hlt)]
  exact (serve_of_not_starts hnot).1

theorem FirstToStart.serve_eq {first : Request} {log : ProcessLog}
    (h : FirstToStart start world requests position log) (hget : requests[position]? = some first) :
    ∃ left, Asks first log ∧
      serve start (reached start world requests position) first = (.ok log, some log, left) := by
  obtain ⟨asked, hasked, hstarts⟩ := h.starts
  obtain rfl := Option.some.inj (hget.symm.trans hasked)
  have hserve := serve_of_starts hstarts
  rw [← reached_eq h.none_before] at hserve
  exact ⟨_, hstarts.1, hserve⟩

/-- **The first request that succeeds sets up the log, for good.** Requests with any texts come one
after the other, and whether a log starts may depend on all that earlier starts did to the world. As
long as no request has been understood and its log has started, nothing is set up and all were
refused. The first one is answered with the log it asks for, the level that its text names and its
directory without the blanks around it; that log agrees with its own request, and it is told of ever
after. A later request is accepted exactly if its text names the same level and its directory is an
equal path, or both have none; otherwise it is refused, and nothing changes in either case. -/
theorem set_up_by_first (start : ProcessLog → StateM σ (Except LogError Unit)) (world : σ)
    (requests : List Request) :
    (∀ position, (∀ earlier < position, ∀ log, ¬ StartsAt start world requests earlier log) →
      statusAt start world requests position = none ∧
      ∀ earlier < position, ∀ reply, replyAt? start world requests earlier = some reply →
        ∃ error, reply = .error error) ∧
    (∀ position first log, requests[position]? = some first →
      FirstToStart start world requests position log →
      replyAt? start world requests position = some (.ok log) ∧
      Repeats first log ∧
      ∀ later, position < later →
        statusAt start world requests later =
          some (log.level.name, first.directory.map Text.trim) ∧
        ∀ asked, requests[later]? = some asked →
          (replyAt? start world requests later = some (.ok log) ↔ Repeats asked log) ∧
          (¬ Repeats asked log →
            ∃ error, replyAt? start world requests later = some (.error error)) ∧
          reached start world requests (later + 1) = reached start world requests later) := by
  constructor
  · intro position hnone
    refine ⟨?_, ?_⟩
    · rw [statusAt, nothing_reached hnone]
      rfl
    · intro earlier hlt reply hreply
      exact refused_of_not_startsAt
        (fun other hle => hnone other (Nat.lt_of_le_of_lt hle hlt)) hreply
  · intro position first log hget hfirst
    obtain ⟨left, hasks, hserve⟩ := hfirst.serve_eq hget
    have hset : reached start world requests (position + 1) = (some log, left) := by
      rw [reached_succ hget, hserve]
    refine ⟨?_, hasks.repeats, ?_⟩
    · rw [replyAt?_eq hget, hserve]
    · intro later hlt
      have hsome : (reached start world requests (position + 1)).1 = some log := by rw [hset]
      have hlater : reached start world requests later = (some log, left) := by
        rw [reached_of_le hlt hsome, hset]
      refine ⟨?_, ?_⟩
      · rw [statusAt, hlater, ← hasks.destination]
        rfl
      · intro asked hasked
        obtain ⟨hleft, hok, herror⟩ := serve_of_some start log left asked
        rw [replyAt?_eq hasked, reached_succ hasked, hlater, hleft, Option.some.injEq]
        refine ⟨hok, ?_, rfl⟩
        intro hnot
        obtain ⟨error, hreply⟩ := herror hnot
        exact ⟨error, congrArg some hreply⟩

end History

/-- A start that fails at the first try. -/
def atSecondTry (_ : ProcessLog) : StateM Nat (Except LogError Unit) := fun tries =>
  (if tries = 0 then .error (.notStarted "busy") else .ok (), tries + 1)

/-- A level that is none, a start that fails, one that does not, the same log in another spelling,
and another level. -/
def fiveRequests : List Request :=
  [⟨"off", none⟩, ⟨"info", some "/var/log"⟩, ⟨" Warning ", some "\t/var/log/"⟩,
    ⟨"WARN", some "/var//log/."⟩, ⟨"info", some "/var/log"⟩]

theorem set_up_atSecondTry :
    FirstToStart atSecondTry 0 fiveRequests 2 ⟨.warn, some "/var/log/"⟩ ∧
    statusAt atSecondTry 0 fiveRequests 2 = none ∧
    statusAt atSecondTry 0 fiveRequests 5 = some ("warn", some "/var/log/") ∧
    replyAt? atSecondTry 0 fiveRequests 3 = some (.ok ⟨.warn, some "/var/log/"⟩) ∧
    ∃ error, replyAt? atSecondTry 0 fiveRequests 4 = some (.error error) := by
  have hfirst : FirstToStart atSecondTry 0 fiveRequests 2 ⟨.warn, some "/var/log/"⟩ := by
    constructor
    · exact ⟨_, rfl, request_eq_ok_iff.mp (by decide +kernel), by decide +kernel⟩
    · rintro earlier hlt other ⟨asked, hget, hasks, hstart⟩
      obtain rfl | rfl : earlier = 0 ∨ earlier = 1 := by omega
      · obtain rfl : asked = ⟨"off", none⟩ := (Option.some.inj hget).symm
        have hok := request_eq_ok_iff.mpr hasks
        dsimp only at hok
        have hrefused : request "off" none = .error (.unknownLevel "off") := by decide +kernel
        rw [hrefused] at hok
        cases hok
      · have hfails : ((atSecondTry other).run (reached atSecondTry 0 fiveRequests 1).2).1 =
            .error (.notStarted "busy") := by
          have hworld : (reached atSecondTry 0 fiveRequests 1).2 = 0 := by decide +kernel
          rw [hworld]
          rfl
        rw [hfails] at hstart
        cases hstart
  obtain ⟨hbefore, hafter⟩ := set_up_by_first atSecondTry 0 fiveRequests
  obtain ⟨-, -, hlater⟩ := hafter 2 _ _ rfl hfirst
  refine ⟨hfirst, (hbefore 2 hfirst.none_before).1, ?_, ?_, ?_⟩
  · rw [(hlater 5 (by decide)).1]
    decide +kernel
  · have hasks : Asks ⟨"WARN", some "/var//log/."⟩ ⟨.warn, some "/var//log/."⟩ :=
      request_eq_ok_iff.mp (by decide +kernel)
    refine ((hlater 3 (by decide)).2 _ rfl).1.mpr ?_
    exact (accept_asked_eq_ok_iff hasks).mp (by decide +kernel)
  · refine ((hlater 4 (by decide)).2 _ rfl).2.1 ?_
    rintro ⟨hlevel, -⟩
    exact absurd (LogLevel.ofName?_eq_some_iff.mpr hlevel) (by decide +kernel)

end ProcessLog

end ServiceHost
