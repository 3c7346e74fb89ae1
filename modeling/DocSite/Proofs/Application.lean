import DocSite.Application
import DocSite.Proofs.Http.Run

/-!
An application at work. Once it has started, files are written and removed, the declaration is
loaded again, and requests come in, in any order. The store is never empty on the way, its version
counts what has been stored, and loading the declaration again either stores what the file says at
that moment or leaves the application as it was.
-/

namespace DocSite

section Root

open Http

namespace Http.Service

theorem serveRoot_cases (service : Service) (fresh : String) (request : Request) :
    service.serveRoot fresh request = service.serve fresh request ∨
    ∃ answer : Answer, answer.status ≠ 200 ∧
      service.serveRoot fresh request = ⟨answer.toResponse [], [], service⟩ := by
  have aside (answer : Answer) (hstatus : answer.status ≠ 200) :
      ∃ a : Answer, a.status ≠ 200 ∧
        (⟨answer.toResponse [], [], service⟩ : Exchange) = ⟨a.toResponse [], [], service⟩ :=
    ⟨answer, hstatus, rfl⟩
  rw [serveRoot]
  dsimp only
  split
  · exact .inr (aside .noPath (by decide))
  · cases (Target.ofText request.target).segments with
    | nil => exact .inr (aside .notFound (by decide))
    | cons first rest =>
      cases rest with
      | nil =>
        dsimp only
        split
        · exact .inr (aside (.moved _ _) (by simp [Answer.status]))
        · exact .inr (aside .notFound (by decide))
      | cons =>
        cases movedTo? request with
        | some location => exact .inr (aside (.moved _ _) (by simp [Answer.status]))
        | none =>
          dsimp only
          split
          · exact .inl rfl
          · exact .inr (aside .notFound (by decide))

theorem serveRoot_turn {service : Service} {limit : Nat} {store : Store}
    (h : service.Holds limit store) (fresh : String) (request : Request) :
    ∃ after, (service.serveRoot fresh request).service.Holds limit after ∧
      TurnLaw limit False store request (service.serveRoot fresh request).response after := by
  obtain heq | ⟨answer, hstatus, heq⟩ := serveRoot_cases service fresh request
  · obtain ⟨after, hafter, law⟩ := serve_turn h fresh request
    rw [heq]
    exact ⟨after, hafter, { law with shown := fun _ => False.elim }⟩
  · rw [heq]
    exact ⟨store, h, .of_kept (fun hu => hstatus hu.2) fun _ => False.elim⟩

end Http.Service

end Root

inductive Event
  | edit (files : Files)
  | reload
  | request (turn : Http.Turn)

structure Scene where
  files : Files
  app : Application

namespace Scene

def step (scene : Scene) : Event → Scene
  | .edit files => { scene with files }
  | .reload => { scene with app := (scene.app.reload scene.files).2.2 }
  | .request t => { scene with app := (scene.app.serve t.fresh t.request).2.2 }

def after (scene : Scene) (events : List Event) : Scene := events.foldl step scene

/-- The event is answered by storing a configuration. -/
def Stores (scene : Scene) : Event → Prop
  | .edit _ => False
  | .reload => (scene.app.reload scene.files).1.isOk
  | .request t => t.request.Updates (scene.app.serve t.fresh t.request).1

instance (scene : Scene) (event : Event) : Decidable (scene.Stores event) :=
  match event with
  | .edit _ => inferInstanceAs (Decidable False)
  | .reload => inferInstanceAs (Decidable (_ = true))
  | .request t => inferInstanceAs (Decidable (t.request.Updates _))

def stored (scene : Scene) : List Event → Nat
  | [] => 0
  | e :: r => (if scene.Stores e then 1 else 0) + (scene.step e).stored r

end Scene

section Declaration

variable (files : Files) (here : Path.Place) (path : String) (parse : Parser) (format : Format)

def Files.Declares (site : Site) : Prop :=
  ∃ text fields report, files.read here path = .ok text ∧ format.decode text parse = .ok fields ∧
    build fields = .ok report ∧ report.site = site

/-- The file declares none: it cannot be read, or not be decoded, or what it declares is refused. -/
inductive Files.DeclaresNone : Prop
  | missing {fault : Fault} : files.read here path = .error fault → DeclaresNone
  | undecodable {text : String} {fault : Fault} : files.read here path = .ok text →
    format.decode text parse = .error fault → DeclaresNone
  | refused {text : String} {fields : Fields} {fault : Fault} : files.read here path = .ok text →
    format.decode text parse = .ok fields → build fields = .error fault → DeclaresNone

theorem Files.declares_or_declaresNone :
    (∃ site, files.Declares here path parse format site) ∨
      files.DeclaresNone here path parse format := by
  cases hread : files.read here path with
  | error fault => exact .inr (.missing hread)
  | ok text =>
    cases hdecode : format.decode text parse with
    | error fault => exact .inr (.undecodable hread hdecode)
    | ok fields =>
      cases hbuild : build fields with
      | error fault => exact .inr (.refused hread hdecode hbuild)
      | ok report => exact .inl ⟨_, text, fields, report, hread, hdecode, hbuild, rfl⟩

end Declaration

namespace Application

variable {app : Application} {files : Files} {format : Format} {strategy : Strategy}

theorem loadDeclaration_eq {here : Path.Place} {path : String} (parse : Parser)
    (h : Format.ofPath path = .ok format) :
    loadDeclaration files here path parse =
      ((files.read here path).mapError (.wrap ("read declaration " ++ path))).bind fun text =>
        (format.decode text parse).mapError (.wrap ("decode declaration " ++ path)) := by
  rw [loadDeclaration, h]
  rfl

theorem load_of_declaresNone (hformat : Format.ofPath app.path = .ok format)
    (h : files.DeclaresNone app.here app.path app.parse format) :
    ∃ fault log, app.load files strategy = (.error (.fault fault), log, app) := by
  rw [load, loadDeclaration_eq app.parse hformat]
  cases h with
  | missing hread =>
    rw [hread]
    exact ⟨_, _, rfl⟩
  | undecodable hread hdecode =>
    rw [hread]
    simp only [Except.mapError, Except.bind, hdecode]
    exact ⟨_, _, rfl⟩
  | refused hread hdecode hbuild =>
    rw [hread]
    simp only [Except.mapError, Except.bind, hdecode, buildLogged, hbuild]
    exact ⟨_, _, rfl⟩

theorem load_of_declares (hformat : Format.ofPath app.path = .ok format) {site : Site}
    (h : files.Declares app.here app.path app.parse format site) {store : Store}
    (hstore : app.service.repository = .working store) :
    ∃ log, app.load files strategy =
      (.ok (store.commit ("file:" ++ app.path) (strategy.apply store.snapshot site)).1, log,
        { app with service := { app.service with
            repository := .working
              (store.commit ("file:" ++ app.path) (strategy.apply store.snapshot site)).2 } }) := by
  obtain ⟨text, fields, report, hread, hdecode, hbuild, rfl⟩ := h
  rw [load, loadDeclaration_eq app.parse hformat, hread]
  simp only [Except.mapError, Except.bind, hdecode, buildLogged, hbuild, hstore]
  exact ⟨_, rfl⟩

theorem load_cases (app : Application) (hformat : Format.ofPath app.path = .ok format)
    {store : Store} (hstore : app.service.repository = .working store) (files : Files)
    (strategy : Strategy) :
    (files.DeclaresNone app.here app.path app.parse format ∧
      ∃ fault log, app.load files strategy = (.error (.fault fault), log, app)) ∨
    ∃ site, files.Declares app.here app.path app.parse format site ∧
      ∃ log, app.load files strategy =
      (.ok (store.commit ("file:" ++ app.path) (strategy.apply store.snapshot site)).1, log,
        { app with service := { app.service with
            repository := .working
              (store.commit ("file:" ++ app.path) (strategy.apply store.snapshot site)).2 } }) := by
  obtain ⟨site, h⟩ | h := files.declares_or_declaresNone app.here app.path app.parse format
  · exact .inr ⟨site, h, load_of_declares hformat h hstore⟩
  · exact .inl ⟨h, load_of_declaresNone hformat h⟩

structure Runs (settings : Settings) (here : Path.Place) (path : String) (parse : Parser)
    (version : Nat) (app : Application) : Prop where
  settings : app.settings = settings
  here : app.here = here
  path : app.path = path
  parse : app.parse = parse
  filled : ∃ limit store s, app.service.Holds limit store ∧ store.snapshot = some s ∧
    s.version = version

section Run

variable {settings : Settings} {here : Path.Place} {path : String} {parse : Parser} {n : Nat}
  {scene : Scene}

theorem Runs.reload (h : Runs settings here path parse n scene.app)
    (hformat : Format.ofPath path = .ok format) :
    Runs settings here path parse (n + if scene.Stores .reload then 1 else 0)
      (scene.step .reload).app := by
  obtain ⟨limit, store, s, hholds, hs, hversion⟩ := h.filled
  obtain ⟨-, fault, log, hload⟩ | ⟨site, -, log, hload⟩ :=
    load_cases scene.app (h.path ▸ hformat) hholds.repository scene.files
      (.ofName scene.app.settings.reloadStrategy)
  · have hstores : ¬scene.Stores .reload := by
      simp [Scene.Stores, Application.reload, hload, Except.isOk, Except.toBool]
    rw [if_neg hstores, Scene.step, Application.reload, hload]
    exact h
  · have hstores : scene.Stores .reload := by
      simp [Scene.Stores, Application.reload, hload, Except.isOk, Except.toBool]
    rw [if_pos hstores, Scene.step, Application.reload, hload]
    refine ⟨h.settings, h.here, h.path, h.parse, limit, _, _, ⟨rfl, hholds.bodyLimit⟩, rfl, ?_⟩
    simp [Store.nextVersion, hs, hversion]

theorem Runs.request (h : Runs settings here path parse n scene.app) (t : Http.Turn) :
    Runs settings here path parse (n + if scene.Stores (.request t) then 1 else 0)
      (scene.step (.request t)).app := by
  obtain ⟨limit, store, s, hholds, hs, hversion⟩ := h.filled
  obtain ⟨after, hafter, law⟩ := Http.Service.serveRoot_turn hholds t.fresh t.request
  split
  · rename_i hu
    obtain ⟨source, site, rfl⟩ := law.exists_commit hu
    refine ⟨h.settings, h.here, h.path, h.parse, limit, _, _, hafter, rfl, ?_⟩
    simp [Store.nextVersion, hs, hversion]
  · rename_i hu
    obtain rfl := law.kept hu
    exact ⟨h.settings, h.here, h.path, h.parse, limit, _, s, hafter, hs, hversion⟩

theorem Runs.step (h : Runs settings here path parse n scene.app)
    (hformat : Format.ofPath path = .ok format) (event : Event) :
    Runs settings here path parse (n + if scene.Stores event then 1 else 0)
      (scene.step event).app := by
  cases event with
  | edit files => exact h
  | reload => exact h.reload hformat
  | request t => exact h.request t

theorem Runs.after (h : Runs settings here path parse n scene.app)
    (hformat : Format.ofPath path = .ok format) (events : List Event) :
    Runs settings here path parse (n + scene.stored events) (scene.after events).app := by
  induction events generalizing scene n with
  | nil => exact h
  | cons e r ih =>
    rw [Scene.stored, ← Nat.add_assoc]
    exact ih (h.step hformat e)

end Run

theorem repository_newService (settings : Settings) (clock : Clock) (decisions : List Bool) :
    (newService settings clock decisions).repository = .working (.new clock) := by
  rw [newService]
  split <;> rfl

theorem runs_of_start {settings : Settings} {here : Path.Place} {clock : Clock}
    {decisions : List Bool} {parse : Parser} {log : List Log.Entry}
    (h : start settings files here clock decisions parse = (.ok app, log)) :
    ∃ path format, locate files here settings.declaration = .ok path ∧
      Format.ofPath path = .ok format ∧ Runs settings here path parse 1 app := by
  rw [start] at h
  cases hlocate : locate files here settings.declaration with
  | error fault => simp [hlocate] at h
  | ok path =>
    rw [hlocate] at h
    dsimp only at h
    -- the extension of the path told the format, or nothing would have been loaded
    cases hformat : Format.ofPath path with
    | error fault =>
      have hload : loadDeclaration files here path parse = .error fault := by
        rw [loadDeclaration, hformat]
        rfl
      simp [load, hload] at h
    | ok format =>
      refine ⟨path, format, rfl, hformat, ?_⟩
      obtain ⟨-, fault, log', hload⟩ | ⟨site, -, log', hload⟩ :=
        load_cases ⟨settings, here, path, newService settings clock decisions, parse⟩ hformat
          (repository_newService settings clock decisions) files .replace
      · simp [hload] at h
      · rw [hload] at h
        obtain rfl := Except.ok.inj (Prod.ext_iff.mp h).1
        exact ⟨rfl, rfl, rfl, rfl, _, _, _, ⟨rfl, rfl⟩, rfl, rfl⟩

/-- What loading the declaration again does, while a snapshot is in the store. A file that declares
nothing leaves the application as it was; a site that it declares is stored as the next version. -/
structure ReloadLaw (scene : Scene) (strategy : Strategy) (here : Path.Place) (path : String)
    (parse : Parser) (format : Format) (current : Snapshot) : Prop where
  failed : scene.files.DeclaresNone here path parse format →
    (∃ trouble, (scene.app.reload scene.files).1 = .error trouble) ∧
      (scene.step .reload).app = scene.app
  stored : ∀ site, scene.files.Declares here path parse format site → ∃ next : Snapshot,
    (scene.app.reload scene.files).1 = .ok next ∧ (scene.step .reload).app.current = .ok next ∧
      next.version = current.version + 1 ∧ next.source = "file:" ++ path ∧
      next.site = match strategy with
        | .replace => site
        | .reconcile => current.site.reconcile site

theorem Runs.reloadLaw {settings : Settings} {here : Path.Place} {path : String} {parse : Parser}
    {n : Nat} {scene : Scene} (h : Runs settings here path parse n scene.app)
    (hformat : Format.ofPath path = .ok format) :
    ∃ s, scene.app.current = .ok s ∧ s.version = n ∧
      ReloadLaw scene (.ofName settings.reloadStrategy) here path parse format s := by
  obtain ⟨limit, store, s, hholds, hs, hversion⟩ := h.filled
  obtain ⟨rfl, rfl, rfl, rfl, -⟩ := h
  have hcurrent : scene.app.current = .ok s := by
    rw [Application.current, hholds.repository, Http.Repository.current, Store.current, hs]
  refine ⟨s, hcurrent, hversion, ?_, ?_⟩
  · intro hnone
    obtain ⟨fault, log, hload⟩ := load_of_declaresNone hformat hnone
    rw [Scene.step, Application.reload, hload]
    exact ⟨⟨_, rfl⟩, rfl⟩
  · intro site hsite
    obtain ⟨log, hload⟩ := load_of_declares hformat hsite hholds.repository
    rw [Scene.step, Application.reload, hload]
    refine ⟨_, rfl, rfl, ?_, rfl, ?_⟩
    · simp [Store.commit, Store.nextVersion, hs]
    · rw [hs, Store.commit]
      cases Strategy.ofName scene.app.settings.reloadStrategy <;> rfl

/-- After a start that succeeded, and whatever has happened since, the store holds a snapshot whose
version is one more than the number of events that stored something, and the declaration can be
loaded again at any moment. The version fits into 64 bits for fewer than 2 ^ 64 such events. -/
theorem start_run {settings : Settings} {here : Path.Place} {clock : Clock} {decisions : List Bool}
    {parse : Parser} {log : List Log.Entry}
    (h : start settings files here clock decisions parse = (.ok app, log)) (past : List Event) :
    let scene : Scene := ⟨files, app⟩
    ∃ path format s, locate files here settings.declaration = .ok path ∧
      Format.ofPath path = .ok format ∧ (scene.after past).app.current = .ok s ∧
      s.version = 1 + scene.stored past ∧
      ReloadLaw (scene.after past) (.ofName settings.reloadStrategy) here path parse format s := by
  intro scene
  obtain ⟨path, format, hlocate, hformat, hruns⟩ := runs_of_start h
  have hscene : Runs settings here path parse 1 scene.app := hruns
  obtain ⟨s, hcurrent, hversion, law⟩ := (hscene.after hformat past).reloadLaw hformat
  exact ⟨path, format, s, hlocate, hformat, hcurrent, hversion, law⟩

theorem start_run_removed_put :
    let settings : Settings := { declaration := "site.json", reloadStrategy := "reconcile" }
    let files := Files.empty.write ["site.json".toList]
      "\x7b\"title\":\"T\",\"description\":\"D\"\x7d"
    let past : List Event := [.edit .empty, .reload, .request ⟨"a", "PUT", "/api/site-config", [],
      "\x7b\"title\":\"U\",\"description\":\"D\"\x7d"⟩]
    ∃ app log, start settings files [] (.steady ⟨0⟩ 1) = (.ok app, log) ∧
      ∃ s, ((⟨files, app⟩ : Scene).after past).app.current = .ok s ∧ s.version = 2 := by
  intro settings files past
  have hok : (start settings files [] (.steady ⟨0⟩ 1)).1.toOption.isSome := by decide +kernel
  have hstored : ∀ app ∈ (start settings files [] (.steady ⟨0⟩ 1)).1.toOption,
      (⟨files, app⟩ : Scene).stored past = 1 := by decide +kernel
  rcases hstart : start settings files [] (.steady ⟨0⟩ 1) with ⟨_ | app, log⟩
  · simp [hstart, Except.toOption] at hok
  · have hone := hstored app (by simp [hstart, Except.toOption])
    obtain ⟨-, -, s, -, -, hcurrent, hversion, -⟩ := start_run hstart past
    exact ⟨app, log, rfl, s, hcurrent, by rw [hversion, hone]⟩

end Application

end DocSite
