import CodeReview.Proofs.CommandLine.Spelling
import CodeReview.Proofs.Config.Names
import CodeReview.Proofs.Config.Rules
import CodeReview.Proofs.Model.Body
import CodeReview.Proofs.Model.Endpoint
import CodeReview.Proofs.Prompt.Rendering
import CodeReview.Proofs.RateLimit.Waiting
import CodeReview.Proofs.Review.Obstacle
import CodeReview.Proofs.Review.Reply
import CodeReview.Proofs.Session.Asked
import CodeReview.Proofs.Session.Jobs

/-!
# Models without a name

A configuration that is loaded gives its models the names that its file has for them, and their keys
as names where it has none.  A key may be blank, and nothing asks for a name after that: a model
under such a key, with no name or a blank one, is `Config.Nameless`.

Every model of a configuration can be asked, whatever its name is (`Program.exists_asked`), and only
those are asked (`Program.asked_of_loaded`).  So no question goes to a model with a blank name
exactly if the file leaves none nameless: `Program.named_tfae`.
-/

namespace CodeReview

open Act Machine CodeReview.Text CodeReview.CommandLine

/-! ### The name in a request -/

namespace Dialect

/-- The model that a request names in its body, if it names one there. -/
def identifier? (d : Dialect) (r : Http.Request) : Option String :=
  (r.body.bind d.asked?).bind Asked.model

/-- A request names the model by no other name than its own. -/
lemma eq_of_mem_named? {d : Dialect} {m : Model} {name : String} (h : name ∈ d.named? m) :
    name = m.name := by
  cases d with
  | completions | messages => exact (Option.some.inj h).symm
  | contents => cases h

end Dialect

namespace Question

variable {q : Question} {timeout : Duration} {r : Http.Request} {m : Machine}

/-- What is sent is the request of the question, with an address and a key. -/
lemma exists_request_of_firstSent? (h : q.firstSent? timeout m = some r) :
    ∃ base key, q.model.provider.dialect.request base key q = .ok r := by
  cases hbase : q.model.base with
  | error e =>
      rw [firstSent?, askNetwork_run_of_no_base timeout hbase, List.drop_length] at h
      cases h
  | ok base =>
      cases hkey : q.model.key (m.setting? q.model.keyName) with
      | error e =>
          rw [firstSent?, askNetwork_run_of_no_key timeout hbase hkey, List.drop_length] at h
          cases h
      | ok key =>
          rw [firstSent?_eq timeout hbase hkey] at h
          cases hrequest : q.model.provider.dialect.request base key q with
          | error e =>
              rw [hrequest] at h
              cases h
          | ok request =>
              rw [hrequest] at h
              exact ⟨base, key, hrequest.trans (congrArg Except.ok (Option.some.inj h))⟩

/-- **What is sent for a question names its model**, in the formats that have the name in the
body. -/
lemma identifier?_of_firstSent? (h : q.firstSent? timeout m = some r) :
    q.model.provider.dialect.identifier? r = q.model.provider.dialect.named? q.model := by
  obtain ⟨base, key, hrequest⟩ := exists_request_of_firstSent? h
  unfold Dialect.request at hrequest
  cases haddress : Http.address (q.model.provider.dialect.address base q.model) with
  | error e =>
      rw [haddress] at hrequest
      cases hrequest
  | ok url =>
      rw [haddress] at hrequest
      rw [Dialect.identifier?, Http.body_of_build hrequest, Option.bind_some, Dialect.asked?_body,
        Option.bind_some]

/-- A question to a public service is sent where there is a key, with the name of its model. -/
lemma exists_firstSent?_openai {name : String} (hmodel : q.model = .ofName name .openai)
    (hkey : m.setting? "OPENAI_API_KEY" = some "a") (timeout : Duration) :
    ∃ r, q.firstSent? timeout m = some r ∧
      q.model.provider.dialect.identifier? r = some name := by
  let base := "https://api.openai.com/v1"
  let url : Url := ⟨"https", true, "", none, some (.name "api.openai.com"), none,
    .segments ["v1", "chat", "completions"], none, none⟩
  have hprovider : q.model.provider.dialect = .completions := by rw [hmodel]; rfl
  have hbase : q.model.base = .ok base := by
    rw [hmodel]
    exact (Model.base_of_baseText? rfl).trans (congrArg Except.ok (by decide +kernel))
  have hown : q.model.key (m.setting? q.model.keyName) = .ok "a" := by
    have hvariable : Provider.openai.keyVariable = "OPENAI_API_KEY" := by decide +kernel
    rw [hmodel]
    change Model.key _ (m.setting? Provider.openai.keyVariable) = _
    rw [hvariable, hkey]
    rfl
  have haddress : Http.address (q.model.provider.dialect.address base q.model) = .ok url := by
    have htext : Http.address (base ++ "/chat/completions") = .ok url := by decide +kernel
    rwa [hprovider]
  have hheaders :
      (q.model.provider.dialect.keyHeaders "a").all (Http.isHeaderValue ·.2) = true := by
    rw [hprovider]
    decide +kernel
  have htarget := firstSent?_target timeout hbase hown hheaders haddress
  rw [hprovider, if_pos (by decide +kernel)] at htarget
  obtain ⟨r, hr, -⟩ := Option.map_eq_some_iff.mp htarget
  refine ⟨r, hr, (identifier?_of_firstSent? hr).trans ?_⟩
  rw [hmodel]
  rfl

end Question

/-! ### A page from the web -/

namespace Source

open CodeReview.Http

/-- The address of a page. -/
def pageAddress : String := "http://h/"

/-- The address of a page as it is read. -/
def pageUrl : Url := ⟨"http", true, "", none, some (.name "h"), none, .segments [""], none, none⟩

/-- A network that gives an empty page at once, whatever is asked. -/
def emptyPages : ℕ → Request → Outcome := fun _ _ => .answered 0 ⟨200, none, none, [], true⟩

variable {m : Machine}

/-- A page of the network of empty pages can be fetched. -/
lemma exists_fetch_page {timeout : Duration} (htimeout : 0 < timeout) (locator : String)
    (hnetwork : m.network = emptyPages) :
    ∃ text m', (fetch timeout locator pageUrl).run.run m = (.ok text, m') := by
  let page : Response := ⟨200, none, none, [], true⟩
  let started := m.note (.logged .debug ("🌐 Fetching source from " ++ pageUrl.text))
  have hlog : (liftM (Act.log .debug ("🌐 Fetching source from " ++ pageUrl.text)) :
    Command Unit).run.run m = (.ok (), started) := rfl
  obtain ⟨request, hbuild⟩ : ∃ request, build .get pageUrl [] none = .ok request := by
    have hbuilt : (build .get pageUrl [] none).toOption.isSome = true := by decide +kernel
    cases h : build .get pageUrl [] none with
    | error e =>
        rw [h] at hbuilt
        cases hbuilt
    | ok request => exact ⟨request, rfl⟩
  have hrequest : (Command.orFail (pure (build .get pageUrl [] none))
      fun e => .sourceFetch locator none e.message).run.run started = (.ok request, started) := by
    rw [hbuild]
    rfl
  have hanswered : started.network started.requestsSent request = .answered 0 page := by
    rw [show started.network = emptyPages from hnetwork]
    rfl
  have hsend := Question.send_of_answered hanswered htimeout rfl
  rcases hsent : (send timeout request).run started with ⟨r, m₁⟩
  rw [hsent] at hsend
  obtain rfl : r = .ok page := hsend
  have hresponse : (Command.orFail (send timeout request)
      fun e => .sourceFetch locator none e.message).run.run started = (.ok page, m₁) := by
    rw [Command.run_orFail, hsent]
    rfl
  unfold fetch
  rw [Command.run_bind_of_ok hlog, Command.run_bind_of_ok hrequest,
    Command.run_bind_of_ok hresponse]
  exact ⟨_, _, rfl⟩

/-- The address of a page of the network of empty pages can be resolved. -/
lemma exists_resolve_page {timeout : Duration} (htimeout : 0 < timeout)
    (hnetwork : m.network = emptyPages) :
    ∃ text m', (resolve timeout pageAddress).run.run m = (.ok text, m') := by
  have hplace : place (trim pageAddress) = .web pageUrl := by decide +kernel
  have hnonempty : (trim pageAddress == "") = false := by decide +kernel
  unfold resolve
  simp only [hnonempty, hplace]
  exact exists_fetch_page htimeout _ hnetwork

end Source

/-! ### A review that puts its question -/

namespace Session

variable {s : Session} {i : Invocation} {c : Config} {p : Prepared} {m m₁ m₂ : Machine}

/-- A first review that is prepared is admitted, and its question is put. -/
lemma review_deeds (hdesk : s.desk = none)
    (hload : (Config.load s.configPath).run.run m = (.ok c, m₁))
    (hprepare : (i.prepare c).run.run (m₁.note (.loaded s.configPath (some c))) = (.ok p, m₂)) :
    ((s.review false i).run m).2.deeds = m.deeds ++
      [.loaded s.configPath (some c), .decided m₂.clock .allowed, .consulted p.question] := by
  have hlimit : 0 < c.policy.limit := by
    have hproblems := Config.problems_of_load (congrArg Prod.fst hload)
    exact (Config.problems_eq_nil_iff.mp hproblems).limit
  have hallowed : ((Desk.ofConfig c).limiter.check m₂.clock).1 = .allowed :=
    Limiter.allowed_of_empty hlimit rfl
  have hreview : ((s.review false i).run m).2 = (((Desk.ofConfig c).submit p i).run m₂).2 := by
    unfold review
    rw [run_bind_of (openDesk_of_load hdesk hload)]
    exact congrArg Prod.snd (run_bind_of hprepare)
  have hloaded := ((Config.load_reading s.configPath).keeps_quiet.silent m).1
  have hprepared := ((i.prepare_reading c).keeps_quiet.silent
    (m₁.note (.loaded s.configPath (some c)))).1
  change ((Config.load s.configPath).run.run m).2.deeds = _ at hloaded
  change ((i.prepare c).run.run _).2.deeds = _ at hprepared
  rw [hload] at hloaded
  rw [hprepare, deeds_note, hloaded] at hprepared
  rw [hreview, (Desk.submit_of_allowed hallowed p i).1, hprepared, List.append_assoc]
  rfl

/-- The deeds of a line that orders a review are those of the review. -/
lemma run_review_deeds (s : Session) (wait : Bool) (initPath : String) (i : Invocation)
    (m : Machine) : ((s.run wait initPath (.review i)).run m).2.deeds =
      ((s.review wait i).run m).2.deeds := by
  have hlog (level : Level) (text : String) : (Act.log level text).Keeps Silent :=
    (Act.log_reading level text).keeps_quiet.silent
  have hcarry : ((s.carryOut wait initPath (.review i)).run m).2.deeds =
      ((s.review wait i).run m).2.deeds := by
    unfold carryOut
    refine deeds_bind (fun r => ?_) _ m
    rcases r with ⟨f | _ | path, s'⟩
    · exact Act.keeps_pure _
    · exact Act.keeps_pure _
    · exact (hlog _ _).bind fun _ => Act.keeps_pure _
  rw [← hcarry]
  have hget : (get : Act Machine).run m = (m, m) := rfl
  unfold run
  rw [run_bind_of hget]
  refine deeds_bind (fun r => ?_) _ m
  -- every end is reported but that of a command that the user interrupted
  have hreport : Act.Keeps Silent (do
      let elapsed := (← get).clock - m.clock
      Act.log .info ("⏱️  Command completed in " ++ Duration.seconds elapsed ++ "s")
      pure r) :=
    Act.keeps_get.bind fun _ => (hlog _ _).bind fun _ => Act.keeps_pure _
  rcases r with ⟨f | _, s'⟩
  · cases f with
    | cancelled => exact Act.keeps_pure _
    | _ => exact hreport
  · exact hreport

end Session

namespace Program

variable {words : List String} {l : Line} {i : Invocation} {c : Config} {p : Prepared}
  {m m₁ m₂ : Machine} {path : String}

/-- The deeds of a program that is given a review. -/
lemma deedsOf_review (hparse : parse words = .ok l) (horder : l.order = some (.review i))
    (hpath : l.configPath = some path) (hwait : l.waitOnRateLimit = false)
    (hload : (Config.load path).run.run (warnOfFilter.run m).2 = (.ok c, m₁))
    (hprepare : (i.prepare c).run.run (m₁.note (.loaded path (some c))) = (.ok p, m₂)) :
    deedsOf words [] m =
      [.loaded path (some c), .decided m₂.clock .allowed, .consulted p.question] := by
  have hsession : sessionOf (warnOfFilter.run m).2 l = .start path false := by
    rw [sessionOf, hpath, hwait]
    rfl
  have hdeeds : ((run words []).run m).2.deeds =
      (((Session.start path false).review false i).run (warnOfFilter.run m).2).2.deeds := by
    unfold run
    rw [hparse]
    change ((execute l [] >>= conclude).run (warnOfFilter.run m).2).2.deeds = _
    rw [deeds_bind conclude_silent, execute_run horder, hsession]
    exact Session.run_review_deeds _ _ _ i _
  have hwarned : (warnOfFilter.run m).2.deeds = m.deeds := (warnOfFilter_silent m).1
  rw [deedsOf, hdeeds, Session.review_deeds (s := .start path false) rfl hload hprepare, hwarned,
    List.drop_left]
  rfl

/-- A review of a page by the model under this key. -/
def pageReview (key : String) : Invocation :=
  ⟨.analyze, Source.pageAddress, some "python", none, some key, none⟩

/-- The words that ask for it. -/
def pageWords (path key : String) : List String :=
  ["analyze", "--config-path=" ++ path, "--file=" ++ Source.pageAddress, "--language=python",
    "--model=" ++ key]

/-- The words ask for a review of the page by the model under this key. -/
lemma parse_pageWords (hpath : path ≠ "") (key : String) :
    parse (pageWords path key) = .ok ⟨some path, false, 0, some (.review (pageReview key))⟩ := by
  have hplaced := placed_inner (f := ⟨some path, false⟩) (i := pageReview key)
    (by simpa using hpath) (by simp [pageReview])
  have hspells : Spells ["--config-path=" ++ path, "--file=" ++ Source.pageAddress,
      "--language=python", "--model=" ++ key]
      (Flags.options ⟨some path, false⟩ ++ reviewOptions (pageReview key)) :=
    ⟨_, .cons (.configPath path) (.cons (.file _) (.cons (.language "python")
      (.cons (.model key) .nil))), .refl _⟩
  exact parse_of_spells (placed_outer (f := ⟨none, false⟩) (by simp)) hplaced
    ⟨[], .nil, .refl _⟩ hspells

/-- There is a prompt for it. -/
lemma exists_pagePrompt : ∃ prompt, Prompt.render .analyze (some "python") none = .ok prompt := by
  refine ⟨_, Prompt.render_of_unmarked (by decide) nofun fun name hname => ?_⟩
  rcases Prompt.mem_usedNames_iff.mp hname with rfl | ⟨hneeds, -⟩
  · decide
  · cases hneeds

/-- **Every model of a configuration that can be loaded can be asked**, by the key that it has
there. -/
lemma exists_asked {key : String} {model : Model}
    (h : ((Config.load path).run.run m).1 = .ok c) (hmodel : c.model? key = some model) :
    ∃ now q, q.model = model ∧
      deedsOf (pageWords path key) [] { m with network := Source.emptyPages } =
        [.loaded path (some c), .decided now .allowed, .consulted q] := by
  let online := { m with network := Source.emptyPages }
  let started := (warnOfFilter.run online).2
  obtain ⟨m₁, hload⟩ : ∃ m₁, (Config.load path).run.run started = (.ok c, m₁) :=
    Config.load_of_same_disk h (warnOfFilter_disk online)
  have hnetwork : m₁.network = Source.emptyPages := by
    have hallows := (Config.load_reading path).allows started
    change Licence.Allows _ _ ((Config.load path).run.run started).2 at hallows
    rw [hload] at hallows
    exact hallows.network_eq.trans (warnOfFilter_within.allows online).network_eq
  have htimeout : 0 < c.requestTimeout := by
    have hrules := Config.problems_eq_nil_iff.mp (Config.problems_of_load h)
    exact Nat.mul_pos hrules.timeout (by decide)
  obtain ⟨text, m₂, hsource⟩ :=
    Source.exists_resolve_page (m := m₁.note (.loaded path (some c))) htimeout hnetwork
  obtain ⟨prompt, hprompt⟩ := exists_pagePrompt
  have hlanguage : Prompt.given? (some "python") = some "python" := by decide
  have hprepare := Invocation.prepare_of_source (i := pageReview key)
    (Config.resolve_of_some hmodel) hsource hlanguage hprompt
  exact ⟨_, _, rfl, deedsOf_review (parse_pageWords (Config.ne_empty_of_load h) key) rfl rfl rfl
    hload hprepare⟩

/-! ### Names that are not blank -/

/-- In some run that loads this configuration this question is put. -/
def Asks (path : String) (c : Config) (q : Question) : Prop :=
  ∃ words lines m, .loaded path (some c) ∈ deedsOf words lines m ∧
    .consulted q ∈ deedsOf words lines m

/-- **The names of the models that are loaded, and of those that are asked.**  They are those that
the file gives, and the keys where it gives none or a blank one.  None is blank, and no question
goes to a model whose name is, exactly if the file leaves no model nameless; then no request has a
blank name in it. -/
theorem named_tfae (h : ((Config.load path).run.run m).1 = .ok c) :
    ∃ text stated, m.disk.readText path = .ok text ∧ Config.givenNames? path text = some stated ∧
      (∀ key, (c.model? key).map Model.name =
        (stated.reverse.lookup key).map (Config.nameOf key)) ∧
      [∀ p ∈ c.models, allBlank p.2.name = false,
        ∀ q, Asks path c q → allBlank q.model.name = false,
        ∀ key, ¬Config.Nameless stated key].TFAE ∧
      ((∀ key, ¬Config.Nameless stated key) → ∀ q timeout m' r, Asks path c q →
        q.firstSent? timeout m' = some r →
          ∀ name ∈ q.model.provider.dialect.identifier? r, allBlank name = false) := by
  obtain ⟨text, stated, htext, hstated, hnames⟩ := Config.names_of_load h
  have hmodels := Config.named_iff (Config.isOrdered_of_load h) hnames
  have hasked : (∀ q, Asks path c q → allBlank q.model.name = false) ↔
      ∀ key, ¬Config.Nameless stated key := by
    constructor
    · intro hnamed key hnameless
      obtain ⟨model, hmodel, hblank⟩ := (Config.nameless_iff (hnames key)).mp hnameless
      obtain ⟨now, q, rfl, hdeeds⟩ := exists_asked h hmodel
      have hasks : Asks path c q := ⟨_, _, _, by rw [hdeeds]; simp, by rw [hdeeds]; simp⟩
      exact Bool.false_ne_true ((hnamed q hasks).symm.trans hblank)
    · rintro hnamed q ⟨words, lines, m', hloaded, hconsulted⟩
      obtain ⟨key, hmodel⟩ := asked_of_loaded hloaded hconsulted
      by_contra hblank
      rw [Bool.not_eq_false] at hblank
      exact hnamed key ((Config.nameless_iff (hnames key)).mpr ⟨_, hmodel, hblank⟩)
  refine ⟨text, stated, htext, hstated, hnames, ?_, ?_⟩
  · tfae_have 1 ↔ 3 := hmodels
    tfae_have 2 ↔ 3 := hasked
    tfae_finish
  · intro hnamed q timeout m' r hasks hsent name hname
    rw [Question.identifier?_of_firstSent? hsent] at hname
    rw [Dialect.eq_of_mem_named? hname]
    exact hasked.mpr hnamed q hasks

/-- A blank key of a model that is given a name, and a blank name of a model that has a key. -/
theorem named_tfae_of_one_each :
    let text := "default_model: m\nmodels:\n  m:\n    name: \"\\t\"\n    provider: openai\n" ++
      "  \" \":\n    name: \" gpt \"\n    provider: openai\n"
    let m : Machine := { Machine.bare with disk := ⟨[(["config.yaml"], .file text.toUTF8)], []⟩ }
    ∃ c, ((Config.load "config.yaml").run.run m).1 = .ok c ∧
      (c.model? "m").map Model.name = some "m" ∧ (c.model? " ").map Model.name = some " gpt " ∧
      ∀ q, Asks "config.yaml" c q → allBlank q.model.name = false := by
  intro text m
  have htext : m.disk.readText "config.yaml" = .ok text :=
    Disk.readText_of_enter (by decide) rfl (by decide +kernel)
  have hparse : Config.parse "config.yaml" text = .ok ⟨"m",
      [(" ", .ofName " gpt " .openai), ("m", .ofName "\t" .openai)], .standard,
      Config.standardTimeout⟩ := by
    decide +kernel
  obtain ⟨m', hload⟩ := Config.load_of_text htext hparse (by decide +kernel)
  obtain ⟨text', stated, htext', hstated, hnames, hnamed, -⟩ :=
    named_tfae (congrArg Prod.fst hload)
  obtain rfl : text = text' := Except.ok.inj (htext.symm.trans htext')
  have hgiven : Config.givenNames? "config.yaml" text =
      some [("m", some "\t"), (" ", some " gpt ")] := by
    decide +kernel
  obtain rfl := Option.some.inj (hgiven.symm.trans hstated)
  refine ⟨_, congrArg Prod.fst hload, (hnames "m").trans (by decide),
    (hnames " ").trans (by decide), (hnamed.out 1 2).mpr ?_⟩
  rintro key ⟨hblank, given, hlookup, hgivens⟩
  change [(" ", some " gpt "), ("m", some "\t")].lookup key = some given at hlookup
  rw [Config.lookup_cons_eq, Config.lookup_cons_eq] at hlookup
  split_ifs at hlookup with hspace hletter
  · cases hlookup
    exact absurd (hgivens " gpt " rfl) (by decide)
  · subst hletter
    exact absurd hblank (by decide)
  · cases hlookup

/-- **A blank key without a name**: the file is loaded, and the name of the model is blank; it is
asked, and the request names a blank model. -/
theorem not_named_blank_key :
    let text := "default_model: m\nmodels:\n  m:\n    provider: openai\n  \" \":\n" ++
      "    provider: openai\n"
    let m : Machine := { Machine.bare with
      disk := ⟨[(["config.yaml"], .file text.toUTF8)], []⟩
      environment := [("OPENAI_API_KEY", [97])]
      network := Source.emptyPages }
    ∃ c model, ((Config.load "config.yaml").run.run m).1 = .ok c ∧ (" ", model) ∈ c.models ∧
      allBlank model.name = true ∧
      ∃ q, .consulted q ∈ deedsOf (pageWords "config.yaml" " ") [] m ∧ q.model = model ∧
        ∀ timeout, ∃ r, q.firstSent? timeout m = some r ∧
          q.model.provider.dialect.identifier? r = some " " := by
  intro text m
  have htext : m.disk.readText "config.yaml" = .ok text :=
    Disk.readText_of_enter (by decide) rfl (by decide +kernel)
  have hparse : Config.parse "config.yaml" text = .ok ⟨"m",
      [(" ", .ofName "" .openai), ("m", .ofName "" .openai)], .standard,
      Config.standardTimeout⟩ := by
    decide +kernel
  obtain ⟨m', hload⟩ := Config.load_of_text htext hparse (by decide +kernel)
  let model : Model := .ofName " " .openai
  let c : Config :=
    ⟨"m", [(" ", model), ("m", .ofName "m" .openai)], .standard, Config.standardTimeout⟩
  have hconfig : ((Config.load "config.yaml").run.run m).1 = .ok c := congrArg Prod.fst hload
  have hmodel : c.model? " " = some model := rfl
  obtain ⟨now, q, hasked, hdeeds⟩ := exists_asked hconfig hmodel
  refine ⟨c, model, hconfig, by decide, by decide, q, ?_, hasked, fun timeout => ?_⟩
  · have hnow : { m with network := Source.emptyPages } = m := rfl
    rw [← hnow, hdeeds]
    simp
  · exact Question.exists_firstSent?_openai hasked (by decide +kernel) timeout

end Program

end CodeReview
