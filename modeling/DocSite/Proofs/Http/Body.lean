import DocSite.Decode
import DocSite.Proofs.Http.Run
import DocSite.Proofs.Json.Stream

namespace DocSite

namespace Json

variable {p rest : List Char} {d : Json} {fields : Fields}

theorem foldl_of_declaration (hp : parse? p = some d) (hd : d.toDeclaration? = some fields) :
    p.foldl step .start = ⟨[], .done d⟩ := by
  obtain hdone | ⟨_, _, -, -, rfl⟩ := finish?_eq_some_iff.mp hp
  · exact hdone
  · cases hd

theorem follow_of_declaration (hp : parse? p = some d) (hd : d.toDeclaration? = some fields)
    (hrest : rest ≠ []) : follow .start (p ++ rest) = .complete d := by
  obtain ⟨x, more, rfl⟩ := List.exists_cons_of_ne_nil hrest
  refine follow_of_ended sound_start hp ?_
  rw [foldl_of_declaration hp hd, step_done]
  cases isSpace x with
  | true => exact .inl rfl
  | false => exact .inr rfl

end Json

namespace Http

/-- The text begins with a declaration, and this is what follows it. -/
def DeclaredIn (source : List Char) (fields : Fields) (rest : List Char) : Prop :=
  ∃ p, source = p ++ rest ∧ (Json.parse? p).bind Json.toDeclaration? = some fields

def Request.Brings (request : Request) : Prop :=
  request.Submits .replace ∨ request.Submits .reconcile ∨
    request.Names Endpoint.validate.segments ∧ request.method = "POST"

instance (request : Request) : Decidable request.Brings := inferInstanceAs (Decidable (_ ∨ _))

def buildStatus (fields : Fields) : Nat :=
  match build fields with
  | .ok _ => 200
  | .error _ => 422

def readStatus (limit : Nat) (body : String) : Nat :=
  match readDeclaration limit body with
  | .error .tooLarge => 413
  | .error .malformed => 400
  | .ok fields => buildStatus fields

def wholeStatus (limit : Nat) (body : String) : Nat :=
  if limit < body.utf8ByteSize then 413
  else match (Json.parse? body.toList).bind Json.toDeclaration? with
    | none => 400
    | some fields => buildStatus fields

theorem buildStatus_cases (fields : Fields) :
    buildStatus fields = 200 ∨ buildStatus fields = 422 := by
  rw [buildStatus]
  cases build fields with
  | ok => exact .inl rfl
  | error => exact .inr rfl

section Read

variable {limit : Nat} {body : String} {rest : List Char} {fields : Fields}

theorem clip_of_fits {source : List Char} (h : (String.ofList source).utf8ByteSize ≤ limit) :
    clip limit source = source := by
  induction source generalizing limit with
  | nil => rfl
  | cons c r ih =>
    rw [String.ofList_cons, String.utf8ByteSize_append, String.utf8ByteSize_singleton] at h
    have hc := c.utf8Size_pos
    rw [clip, if_neg (by omega), if_pos (by omega), ih (by omega)]

theorem clip_toList (h : body.utf8ByteSize ≤ limit) : clip limit body.toList = body.toList :=
  clip_of_fits (by rwa [String.ofList_toList])

theorem readDeclaration_of_declaredIn (h : DeclaredIn (clip limit body.toList) fields rest)
    (hrest : rest ≠ []) : readDeclaration limit body = .ok fields := by
  obtain ⟨p, hbody, hp⟩ := h
  obtain ⟨d, hd, hfields⟩ := Option.bind_eq_some_iff.mp hp
  have hread : readDocument limit body = .ok d := by
    simp only [readDocument, hbody, Json.follow_of_declaration hd hfields hrest]
  rw [readDeclaration, hread]
  simp only [bind, Except.bind, hfields]

theorem readDocument_of_parse? (h : body.utf8ByteSize ≤ limit) {d : Json}
    (hd : Json.parse? body.toList = some d) : readDocument limit body = .ok d := by
  rw [readDocument, clip_toList h]
  obtain heq | ⟨s, heq⟩ := Json.follow_of_finish Json.sound_start hd
  · rw [heq]
  · obtain ⟨hs, -⟩ := Json.foldl_of_unfinished Json.sound_start nofun heq
    have hfinish : s.finish? = some d := hs ▸ hd
    simp only [heq, if_neg (Nat.not_lt.mpr h), hfinish]

theorem readDeclaration_of_parse?_eq_none (h : body.utf8ByteSize ≤ limit)
    (hnone : Json.parse? body.toList = none) :
    readDeclaration limit body = .error .malformed ∨
      ∃ fields rest, DeclaredIn body.toList fields rest ∧ rest.all Json.isSpace = false := by
  rw [readDeclaration, readDocument, clip_toList h]
  cases hf : Json.follow .start body.toList with
  | broken => exact .inl rfl
  | unfinished s =>
    obtain ⟨hs, -⟩ := Json.foldl_of_unfinished Json.sound_start nofun hf
    have hfinish : s.finish? = none := hs ▸ hnone
    simp only [if_neg (Nat.not_lt.mpr h), hfinish]
    exact .inl rfl
  | complete d =>
    cases hd : d.toDeclaration? with
    | none =>
      refine .inl ?_
      simp only [bind, Except.bind, hd]
    | some fields =>
      obtain ⟨p, rest, hbody, hp, -⟩ := Json.exists_of_complete Json.sound_start hf
      refine .inr ⟨fields, rest, ⟨p, hbody, Option.bind_eq_some_iff.mpr ⟨d, hp, hd⟩⟩, ?_⟩
      -- blanks alone would have left the whole body a document
      by_contra hblank
      rw [Json.parse?, hbody, List.foldl_append, Json.foldl_of_declaration hp hd, Json.foldl_done,
        if_pos (by simpa using hblank)] at hnone
      cases hnone

theorem blank_of_parse? {d : Json} (hd : Json.parse? body.toList = some d)
    (h : DeclaredIn body.toList fields rest) : rest.all Json.isSpace := by
  obtain ⟨p, hbody, hp⟩ := h
  obtain ⟨d', hd', hfields⟩ := Option.bind_eq_some_iff.mp hp
  rw [Json.parse?, hbody, List.foldl_append, Json.foldl_of_declaration hd' hfields] at hd
  exact (Json.finish?_foldl_done hd).2

theorem readStatus_of_fits (h : body.utf8ByteSize ≤ limit) :
    readStatus limit body = wholeStatus limit body ↔
      ∀ fields rest, DeclaredIn body.toList fields rest → rest.all Json.isSpace := by
  rw [wholeStatus, if_neg (Nat.not_lt.mpr h), readStatus]
  cases hd : Json.parse? body.toList with
  | some d =>
    refine iff_of_true ?_ fun fields rest => blank_of_parse? hd
    rw [readDeclaration, readDocument_of_parse? h hd]
    cases hfields : d.toDeclaration? with
    | none => simp only [bind, Except.bind, Option.bind_some, hfields]
    | some fields => simp only [bind, Except.bind, Option.bind_some, hfields]
  | none =>
    constructor
    · intro heq fields rest hdeclared
      by_contra hblank
      have hrest : rest ≠ [] := by
        rintro rfl
        exact hblank rfl
      rw [readDeclaration_of_declaredIn ((clip_toList h).symm ▸ hdeclared) hrest] at heq
      have heq : buildStatus fields = 400 := heq
      obtain hbuild | hbuild := buildStatus_cases fields <;> rw [hbuild] at heq <;> cases heq
    · intro hall
      obtain heq | ⟨fields, rest, hdeclared, hblank⟩ := readDeclaration_of_parse?_eq_none h hd
      · rw [heq]
        rfl
      · rw [hall fields rest hdeclared] at hblank
        cases hblank

theorem readStatus_of_exceeds (h : limit < body.utf8ByteSize) :
    readStatus limit body = wholeStatus limit body ↔ Json.Pending (clip limit body.toList) := by
  rw [wholeStatus, if_pos h, ← Json.unfinished_iff_pending, readStatus, readDeclaration,
    readDocument]
  cases hf : Json.follow .start (clip limit body.toList) with
  | unfinished s =>
    simp only [if_pos h]
    exact iff_of_true rfl ⟨s, rfl⟩
  | broken => exact iff_of_false (show ¬400 = 413 by decide) nofun
  | complete d =>
    refine iff_of_false ?_ nofun
    cases hfields : d.toDeclaration? with
    | none =>
      simp only [bind, Except.bind, hfields]
      decide
    | some fields =>
      simp only [bind, Except.bind, hfields]
      obtain hbuild | hbuild := buildStatus_cases fields <;> rw [hbuild] <;> decide

/-- A body with something in it is no declaration as a whole exactly when it cannot be decoded. -/
theorem wholeStatus_eq_malformed_iff (h : body.utf8ByteSize ≤ limit)
    (hblank : Text.isBlankText body = false) :
    wholeStatus limit body = 400 ↔ ∃ fault, Format.json.decode body = .error fault := by
  have hname : Format.named? Format.json.name = some .json := by decide
  rw [wholeStatus, if_neg (Nat.not_lt.mpr h), Format.decode, decodeNamed, hblank, hname]
  simp only [Format.parse?]
  cases (Json.parse? body.toList).bind Json.toDeclaration? with
  | none => exact iff_of_true rfl ⟨_, rfl⟩
  | some fields =>
    refine iff_of_false ?_ nofun
    obtain hbuild | hbuild := buildStatus_cases fields <;> simp only [hbuild] <;> decide

end Read

namespace Service

variable {service : Service} {limit : Nat} {store : Store} {request : Request}

theorem review_status (service : Service) (body : String) :
    (∃ answer log, service.review body = (.error answer, log) ∧
      answer.status = readStatus service.bodyLimit body) ∨
    (∃ report log, service.review body = (.ok report, log) ∧
      readStatus service.bodyLimit body = 200) := by
  rw [review_eq, readStatus]
  cases readDeclaration service.bodyLimit body with
  | error fault => cases fault <;> exact .inl ⟨_, _, rfl, rfl⟩
  | ok fields =>
    cases hbuild : build fields with
    | error fault =>
      exact .inl ⟨.invalid fault, [], by simp only [hbuild],
        by simp [buildStatus, hbuild, Answer.status]⟩
    | ok report =>
      exact .inr ⟨report, report.log, by simp only [hbuild], by simp [buildStatus, hbuild]⟩

theorem validate_status (service : Service) (body : String) :
    ∃ answer log, service.validate body = (.ok answer, log, service) ∧
      answer.status = readStatus service.bodyLimit body := by
  rw [validate]
  obtain ⟨answer, log, hreview, hstatus⟩ | ⟨report, log, hreview, hstatus⟩ :=
    review_status service body
  · exact ⟨answer, log, by rw [hreview], hstatus⟩
  · exact ⟨.valid report, log, by rw [hreview], hstatus.symm⟩

theorem submit_status (h : service.repository = .working store) (strategy : Strategy)
    (id body : String) : ∃ answer log after,
      service.submit strategy id body = (.ok answer, log, after) ∧
      answer.status = readStatus service.bodyLimit body := by
  rw [submit, h]
  obtain ⟨answer, log, hreview, hstatus⟩ | ⟨report, log, hreview, hstatus⟩ :=
    review_status service body
  · exact ⟨answer, log, service, by rw [hreview], hstatus⟩
  · rw [hreview]
    exact ⟨_, _, _, rfl, hstatus.symm⟩

theorem serve_status (h : service.Holds limit store) (hadmitted : service.consult.1 = none)
    (hb : request.Brings) (fresh : String) :
    (service.serve fresh request).response.status = readStatus limit request.body := by
  have hconsult := consult_holds h
  have hwork (id : String) : ∃ answer log after,
      service.consult.2.dispatch id request = (.ok answer, log, after) ∧
        answer.status = readStatus limit request.body := by
    have hto {e : Endpoint} (hroute : route request = .to e) :
        service.consult.2.dispatch id request = service.consult.2.work id request.body e := by
      rw [dispatch, if_neg fun ho => route_ne_to_of_options ho e hroute, hroute]
    rw [← hconsult.bodyLimit]
    obtain hs | hs | ⟨hnames, hmethod⟩ := hb
    · rw [hto (Request.submits_iff_route.mp hs)]
      exact submit_status hconsult.repository .replace id request.body
    · rw [hto (Request.submits_iff_route.mp hs)]
      exact submit_status hconsult.repository .reconcile id request.body
    · rw [hto (route_eq_to_iff.mpr ⟨hnames, by rw [hmethod]; decide⟩)]
      obtain ⟨answer, log, heq, hstatus⟩ := validate_status service.consult.2 request.body
      exact ⟨answer, log, _, heq, hstatus⟩
  rw [serve]
  rcases hc : service.consult with ⟨_ | wait, admitted⟩
  · rw [hc] at hwork
    obtain ⟨answer, log, after, heq, hstatus⟩ := hwork (requestId fresh request)
    simp only [heq, caught]
    exact hstatus
  · rw [hc] at hadmitted
    cases hadmitted

/-- A declaration that comes in by a request gets the status of the body as a whole exactly when
nothing but blanks follows a declaration in a body that fits, and a body that does not fit is, as
far as it is read, the beginning of a document that has not ended. What follows a declaration never
counts. As a whole, a body is malformed when it cannot be decoded. -/
theorem status_eq_wholeStatus_iff (h : service.Holds limit store)
    (hadmitted : service.consult.1 = none) (hb : request.Brings) (fresh : String) :
    let status := (service.serve fresh request).response.status
    let body := request.body
    (status = wholeStatus limit body ↔
      (limit < body.utf8ByteSize → Json.Pending (clip limit body.toList)) ∧
      (body.utf8ByteSize ≤ limit →
        ∀ fields rest, DeclaredIn body.toList fields rest → rest.all Json.isSpace)) ∧
    (∀ fields rest, DeclaredIn (clip limit body.toList) fields rest → rest ≠ [] →
      status = buildStatus fields) ∧
    (body.utf8ByteSize ≤ limit → Text.isBlankText body = false →
      (wholeStatus limit body = 400 ↔ ∃ fault, Format.json.decode body = .error fault)) := by
  intro status body
  have hstatus : status = readStatus limit body := serve_status h hadmitted hb fresh
  refine ⟨?_, ?_, fun hfits => wholeStatus_eq_malformed_iff hfits⟩
  · rw [hstatus]
    by_cases hfits : body.utf8ByteSize ≤ limit
    · rw [readStatus_of_fits hfits]
      exact ⟨fun hall => ⟨fun hlarge => absurd hfits (Nat.not_le.mpr hlarge), fun _ => hall⟩,
        fun hall => hall.2 hfits⟩
    · rw [readStatus_of_exceeds (Nat.not_le.mp hfits)]
      exact ⟨fun hp => ⟨fun _ => hp, fun hle => absurd hle hfits⟩,
        fun hall => hall.1 (Nat.not_le.mp hfits)⟩
  · intro fields rest hdeclared hrest
    rw [hstatus, readStatus, readDeclaration_of_declaredIn hdeclared hrest]

theorem status_eq_wholeStatus_cut :
    let service : Service :=
      { repository := .working (.new (.steady ⟨0⟩ 1)), clock := .steady ⟨0⟩ 1, bodyLimit := 20 }
    let request : Request :=
      ⟨"PATCH", "/api/site-config", [], "\x7b\"title\":\"T\",\"description\":\"D\"\x7d"⟩
    service.Holds 20 (.new (.steady ⟨0⟩ 1)) ∧ service.consult.1 = none ∧ request.Brings ∧
      (service.serve "a" request).response.status = 413 ∧
      Json.Pending "\x7b\"title\":\"T\",\"descri".toList := by
  intro service request
  have hholds : service.Holds 20 (.new (.steady ⟨0⟩ 1)) := ⟨rfl, rfl⟩
  have hadmitted : service.consult.1 = none := by decide +kernel
  have hbrings : request.Brings := by decide +kernel
  have hstatus : (service.serve "a" request).response.status = 413 := by decide +kernel
  have hwhole : wholeStatus 20 request.body = 413 := by decide +kernel
  have hclip : clip 20 request.body.toList = "\x7b\"title\":\"T\",\"descri".toList := by
    decide +kernel
  obtain ⟨hiff, -⟩ := status_eq_wholeStatus_iff hholds hadmitted hbrings "a"
  have hpending := (hiff.mp (hstatus.trans hwhole.symm)).1 (by decide +kernel)
  exact ⟨hholds, hadmitted, hbrings, hstatus, hclip ▸ hpending⟩

theorem status_of_beginning :
    let service : Service :=
      { repository := .working (.new (.steady ⟨0⟩ 1)), clock := .steady ⟨0⟩ 1, bodyLimit := 40 }
    let put (body : String) : Request := ⟨"PUT", "/api/site-config", [], body⟩
    let status (body : String) := (service.serve "a" (put body)).response.status
    let followed := "\x7b\"title\":\"T\",\"description\":\"D\"\x7d x"
    let padded := "\x7b\"title\":\"T\",\"description\":\"D\"\x7d              "
    let broken := "x                                             "
    (status followed = 200 ∧ wholeStatus 40 followed = 400) ∧
      (status padded = 200 ∧ wholeStatus 40 padded = 413) ∧
      (status broken = 400 ∧ wholeStatus 40 broken = 413) := by
  decide +kernel

end Service

end Http

end DocSite
