import CodeReview.Program.Basic
import CodeReview.Proofs.CommandLine.Quoting
import CodeReview.Proofs.Machine.Licensed
import CodeReview.Proofs.Text.Bytes
import CodeReview.Proofs.Text.Trim

/-!
# A command typed as the one line of a session

A command can be given to the program at once, or its words can be typed between double quotes in a
session that was started without options.  Both ways settle the path of the configuration, the path
of `init` and the option to wait on their own, and come to the same order of a session
(`runTyped_execute`).  What the session adds is a frame of its own: greeting and prompt before the
command, the report of a failure behind it, and the farewell.

There is one difference.  A review that is given the session's own path in another spelling, as
`config.yaml/` for `config.yaml`, keeps to the spelling that the session has
(`CommandLine.Line.takenAt`), and that need not name the same file.
-/

namespace CodeReview

open CodeReview.Text CodeReview.CommandLine

variable {α β : Type}

/-! ### Command lines that respell the path of a session -/

namespace CommandLine.Line

/-- The command line without words. -/
def bare : Line := ⟨none, false, 0, none⟩

/-- A review is given this path in another spelling. -/
def respells (c : Line) (own : String) : Bool :=
  match c.order, c.configPath with
  | some (.review _), some path => Path.isSame path own && path != own
  | _, _ => false

/-- The command line as a session with this configuration path takes it. -/
def takenAt (c : Line) (own : String) : Line :=
  if c.respells own then { c with configPath := some own } else c

variable {c : Line} {own : String}

/-- A session takes the order as it is. -/
lemma order_takenAt (c : Line) (own : String) : (c.takenAt own).order = c.order := by
  unfold takenAt
  split_ifs <;> rfl

/-- A session takes the flag that has reviews wait as it is. -/
lemma waitOnRateLimit_takenAt (c : Line) (own : String) :
    (c.takenAt own).waitOnRateLimit = c.waitOnRateLimit := by
  unfold takenAt
  split_ifs <;> rfl

/-- A command line that does not spell the path in another way is taken as it is. -/
lemma takenAt_eq_self (h : c.respells own = false) : c.takenAt own = c := if_neg (by simp [h])

/-- For a review with a path, what it is to spell the path in another way. -/
lemma respells_of_review {i : Invocation} {path : String} (horder : c.order = some (.review i))
    (hpath : c.configPath = some path) (own : String) :
    c.respells own = (Path.isSame path own && path != own) := by
  simp only [respells, horder, hpath]

/-- Only a review with a path, and with another one, spells it in another way. -/
lemma exists_of_respells (h : c.respells own = true) :
    ∃ i path, c.order = some (.review i) ∧ c.configPath = some path ∧ path ≠ own := by
  unfold respells at h
  split at h
  case h_1 i path horder hpath =>
    rw [Bool.and_eq_true, bne_iff_ne] at h
    exact ⟨i, path, horder, hpath, h.2⟩
  case h_2 => cases h

end CommandLine.Line

/-! ### Acts that coincide but for the session -/

namespace Session

/-- The acts do the same with the same result; only the sessions that they leave may differ. -/
def Coincide (act act' : Act (α × Session)) : Prop :=
  ∀ m, ∃ a s s' m', act.run m = ((a, s), m') ∧ act'.run m = ((a, s'), m')

/-- Acts that do nothing coincide if they have the same result. -/
lemma coincide_pure (a : α) (s s' : Session) : Coincide (pure (a, s)) (pure (a, s')) :=
  fun m => ⟨a, s, s', m, rfl, rfl⟩

/-- Acts coincide that do so after a common beginning. -/
lemma coincide_bind {act : Act α} {f g : α → Act (β × Session)} (h : ∀ a, Coincide (f a) (g a)) :
    Coincide (act >>= f) (act >>= g) := fun _ => h _ _

/-- Acts that coincide one after the other coincide together. -/
lemma Coincide.bind {act act' : Act (α × Session)} {f g : α × Session → Act (β × Session)}
    (h : Coincide act act') (hf : ∀ a s s', Coincide (f (a, s)) (g (a, s'))) :
    Coincide (act >>= f) (act' >>= g) := by
  intro m
  obtain ⟨a, s, s', m', hact, hact'⟩ := h m
  rw [Act.run_bind_of hact, Act.run_bind_of hact']
  exact hf a s s' m'

variable {s s' : Session}

/-- A review depends on the path and the desk of the session, and on nothing else of it. -/
lemma review_coincide (hpath : s.configPath = s'.configPath) (hdesk : s.desk = s'.desk)
    (wait : Bool) (i : Invocation) : Coincide (s.review wait i) (s'.review wait i) := by
  have hopen : s.openDesk = s'.openDesk := by rw [openDesk, openDesk, hpath, hdesk]
  unfold review
  rw [hopen]
  apply coincide_bind
  intro r
  rcases r with f | d
  · exact coincide_pure _ _ _
  · apply coincide_bind
    intro r
    rcases r with f | p
    · exact coincide_pure _ _ _
    · exact coincide_bind fun r => coincide_pure _ _ _

/-- A review is carried out alike at the same path and desk. -/
lemma carryOut_review_coincide (hpath : s.configPath = s'.configPath) (hdesk : s.desk = s'.desk)
    (wait : Bool) (initPath initPath' : String) (i : Invocation) :
    Coincide (s.carryOut wait initPath (.review i)) (s'.carryOut wait initPath' (.review i)) := by
  apply (review_coincide hpath hdesk wait i).bind
  intro r s₁ s₂
  rcases r with f | _ | path
  · exact coincide_pure _ _ _
  · exact coincide_pure _ _ _
  · exact coincide_bind fun _ => coincide_pure _ _ _

/-- Checking a configuration does not depend on the session. -/
lemma carryOut_init_coincide (s s' : Session) (wait : Bool) (initPath : String)
    (writeSample : Bool) : Coincide (s.carryOut wait initPath (.init writeSample))
      (s'.carryOut wait initPath (.init writeSample)) :=
  coincide_bind fun _ => coincide_pure _ _ _

/-- Orders that are carried out alike are run alike, with their time told. -/
lemma run_coincide {wait : Bool} {initPath initPath' : String} {order : Order}
    (h : Coincide (s.carryOut wait initPath order) (s'.carryOut wait initPath' order)) :
    Coincide (s.run wait initPath order) (s'.run wait initPath' order) := by
  unfold run
  apply coincide_bind
  intro m
  apply h.bind
  intro r s₁ s₂
  -- every end is reported but that of a command that the user interrupted
  have hlog : Coincide (do
        let elapsed := (← get).clock - m.clock
        Act.log .info ("⏱️  Command completed in " ++ Duration.seconds elapsed ++ "s")
        pure (r, s₁)) (do
        let elapsed := (← get).clock - m.clock
        Act.log .info ("⏱️  Command completed in " ++ Duration.seconds elapsed ++ "s")
        pure (r, s₂)) :=
    coincide_bind fun _ => coincide_bind fun _ => coincide_pure _ _ _
  rcases r with f | _
  · by_cases hf : f = .cancelled
    · subst hf
      exact coincide_pure _ _ _
    · cases f <;> first | exact hlog | exact absurd rfl hf
  · exact hlog

end Session

/-! ### The order behind a typed line -/

namespace Program

open Session

variable {m : Machine} {c : Line} {own : String}

/-- The path that is given counts, or else the one that is found. -/
lemma location_eq_getD (m : Machine) (given : Option String) :
    Config.location m given = given.getD (Config.location m none) := by
  cases given <;> rfl

/-- A command line with an order and no session runs it. -/
lemma execute_run {order : Order} (h : c.order = some order) (m : Machine) :
    (execute c []).run m = ((((sessionOf m c).runOrder order).run m).1.1,
      (((sessionOf m c).runOrder order).run m).2) := by
  unfold execute
  rw [h]
  rfl

/-- The session that carries out a review of a typed line. -/
lemma runTyped_review (own line : String) {i : Invocation} (h : c.order = some (.review i)) :
    (Session.start own false).runTyped line c =
      (Session.start ((c.takenAt own).configPath.getD own) false).run c.waitOnRateLimit
        ((c.takenAt own).configPath.getD own) (.review i) := by
  cases hpath : c.configPath with
  | none =>
      have htaken : c.takenAt own = c := Line.takenAt_eq_self (by simp [Line.respells, h, hpath])
      simp only [runTyped, h, hpath, htaken]
      rfl
  | some path =>
      have hrespells := Line.respells_of_review h hpath own
      cases hsame : Path.isSame path own with
      | false =>
          have htaken : c.takenAt own = c := Line.takenAt_eq_self (by rw [hrespells, hsame]; rfl)
          simp only [runTyped, h, hpath, htaken, Option.elim, switchConfig, start, hsame]
          rfl
      | true =>
          have htaken : (c.takenAt own).configPath.getD own = own := by
            unfold Line.takenAt
            rw [hrespells, hsame]
            split_ifs with hne
            · rfl
            · rw [hpath]
              simpa using hne
          simp only [runTyped, h, hpath, htaken, Option.elim, switchConfig, start, hsame]
          rfl

/-- **A typed line comes to the same order** as the command line does, as the session takes it. -/
lemma runTyped_execute (hown : Config.location m none = own) (line : String)
    (horder : c.order.isSome = true) : ∃ r s m',
      ((Session.start own false).runTyped line c).run m = ((r, s), m') ∧
      (execute (c.takenAt own) []).run m = (r, m') := by
  obtain ⟨order, horder⟩ := Option.isSome_iff_exists.mp horder
  have htaken : (c.takenAt own).order = some order := by rw [Line.order_takenAt, horder]
  cases order with
  | init writeSample =>
      have hself : c.takenAt own = c := Line.takenAt_eq_self (by simp [Line.respells, horder])
      have htyped : (Session.start own false).runTyped line c = (Session.start own false).run
          c.waitOnRateLimit (c.configPath.getD own) (.init writeSample) := by
        simp only [runTyped, horder]
        rfl
      obtain ⟨r, s, s', m', hrun, hrun'⟩ := run_coincide
        (carryOut_init_coincide (Session.start own false) (sessionOf m c) c.waitOnRateLimit
          (c.configPath.getD own) writeSample) m
      have horderRun : ((sessionOf m c).runOrder (.init writeSample)).run m = ((r, s'), m') := by
        rw [← hrun', runOrder, sessionOf, start, location_eq_getD, hown]
      exact ⟨r, s, m', by rw [htyped, hrun], by rw [hself, execute_run horder, horderRun]⟩
  | review i =>
      have hpath : (Session.start ((c.takenAt own).configPath.getD own) false).configPath =
          (sessionOf m (c.takenAt own)).configPath := by
        rw [sessionOf, start, start, location_eq_getD, hown]
      obtain ⟨r, s, s', m', hrun, hrun'⟩ := run_coincide
        (carryOut_review_coincide hpath rfl c.waitOnRateLimit
          ((c.takenAt own).configPath.getD own) ((c.takenAt own).configPath.getD own) i) m
      have horderRun : ((sessionOf m (c.takenAt own)).runOrder (.review i)).run m =
          ((r, s'), m') := by
        rw [← hrun', runOrder, sessionOf, start, location_eq_getD, hown,
          Line.waitOnRateLimit_takenAt]
      exact ⟨r, s, m', by rw [runTyped_review own line horder, hrun],
        by rw [execute_run htaken, horderRun]⟩

end Program

/-! ### The line as it is typed -/

namespace Session

/-- What is typed for a list of words: all of them between double quotes, and a line feed. -/
def typedLine (words : List String) : List UInt8 := Text.bytes (quotedLine words ++ "\n")

/-- A text without line feeds, and one behind it, is one line. -/
lemma linesOf_append_feed {bs : List UInt8} (h : 10 ∉ bs) :
    linesOf (bs ++ [10]) = [bs ++ [10]] := by
  induction bs with
  | nil => rfl
  | cons b rest ih =>
      rw [List.mem_cons, not_or] at h
      have hb : (b == 10) = false := beq_false_of_ne (Ne.symm h.1)
      simp only [List.cons_append, linesOf, hb, ih h.2]
      rfl

variable {words : List String}

/-- What is typed is one line. -/
lemma linesOf_typedLine (h : ∀ w ∈ words, '\n' ∉ w.toList) :
    linesOf (typedLine words) = [typedLine words] := by
  have hfeed : Text.bytes "\n" = [10] := by decide +kernel
  rw [typedLine, bytes_append, hfeed]
  refine linesOf_append_feed (ten_not_mem_bytes ?_)
  exact not_mem_quotedLine (by decide) (by decide) (by decide) h

/-- Between quotes no blank is lost. -/
lemma trim_typed (hne : words ≠ []) : trim (quotedLine words ++ "\n") = quotedLine words := by
  obtain ⟨w, rest, rfl⟩ := List.exists_cons_of_ne_nil hne
  obtain ⟨middle, hmiddle⟩ := toList_quotedLine_cons w rest
  have hquote : isBlank '"' = false := by decide
  have hends : HasSoundEnds (quotedLine (w :: rest)).toList := by
    rw [hmiddle]
    constructor
    · simp [hquote]
    · rw [← List.cons_append, List.getLast?_concat]
      simp [hquote]
  have hfeed : ∀ c ∈ ['\n'], isBlank c = true := by
    intro c hc
    rw [List.mem_singleton.mp hc]
    decide
  have htrim := @trimChars_append_append _ [] ['\n'] (by simp) hends hfeed
  rw [trim, String.toList_append, ← List.nil_append (quotedLine (w :: rest)).toList]
  exact (congrArg String.ofList htrim).trans (String.ofList_toList)

/-- A line of words between double quotes begins with a quote. -/
lemma head_quotedLine (hne : words ≠ []) : (quotedLine words).toList.head? = some '"' := by
  obtain ⟨w, rest, rfl⟩ := List.exists_cons_of_ne_nil hne
  obtain ⟨middle, hmiddle⟩ := toList_quotedLine_cons w rest
  rw [hmiddle]
  rfl

/-- A quoted line is no exit word. -/
lemma isExit_quotedLine (hne : words ≠ []) : isExit (quotedLine words) = false := by
  have hhead : (lowerAscii (quotedLine words)).toList.head? = some '"' := by
    rw [lowerAscii, String.toList_ofList, List.head?_map, head_quotedLine hne]
    rfl
  have hwords : ∀ w ∈ exitWords, w.toList.head? ≠ some '"' := by decide +kernel
  rw [isExit, ← Bool.not_eq_true, List.contains_iff_mem]
  exact fun hmem => hwords _ hmem hhead

/-- How a session greets the user. -/
def greeting : Event :=
  .logged .info "🤖 Interactive mode. Type '--help' for commands, 'exit' to quit."

/-- What a session tells before its first line. -/
def opening : List Event := [greeting, .shown promptText]

/-- What a session tells of the result of a command. -/
def report : Except Failure Unit → List Event
  | .ok () => []
  | .error f => [.logged .debug f.details, .shown (f.inlineMessage ++ "\n")]

/-- What a session tells at the end of its input. -/
def closing : List Event := [.shown promptText, .shown "\n", .logged .info "👋 Bye"]

variable {m m' : Machine} {s s' : Session} {c : Line} {r : Except Failure Unit}

/-- A console that takes text notes it and nothing else. -/
lemma display_run (text : String) (flush : Bool) (h : m.console = none) :
    (display text flush).run.run m = (.ok (), m.withJournal (m.journal ++ [.shown text])) := by
  have hwrite : (display text flush).run.run m =
      (Command.write m.console flush (.shown text)).run.run m := rfl
  rw [hwrite, h]
  rfl

/-- The session takes the words of a typed line for those that were to be typed. -/
lemma runLine_quotedLine (s : Session) (hparse : parse words = .ok c) :
    s.runLine (quotedLine words) = s.runTyped (quotedLine words) c := by
  simp only [runLine, words?_quotedLine, hparse]

/-- After a command the session goes on, and tells of a failure before that. -/
lemma answerLine_run {text : String} (hblank : trim text ≠ "") (hexit : isExit (trim text) = false)
    (hrun : (s.runLine (trim text)).run m = ((r, s'), m')) (hconsole : m'.console = none) :
    (s.answerLine text).run m = ((.ok true, s'), m'.withJournal (m'.journal ++ report r)) := by
  simp only [answerLine, beq_eq_false_iff_ne.mpr hblank, hexit, Bool.false_eq_true, if_false]
  refine (Act.run_bind_of hrun).trans ?_
  cases r with
  | ok a =>
      rw [report, List.append_nil]
      rfl
  | error f =>
      have hlog : (Act.log .debug f.details).run m' =
          ((), m'.withJournal (m'.journal ++ [.logged .debug f.details])) := rfl
      have hshown := display_run (m := m'.withJournal (m'.journal ++ [.logged .debug f.details]))
        (f.inlineMessage ++ "\n") false hconsole
      refine (Act.run_bind_of hlog).trans ((Act.run_bind_of hshown).trans ?_)
      exact Prod.ext rfl (congrArg m'.withJournal (List.append_assoc ..))

/-- A typed line is run, and its result reported. -/
lemma takeLine_typedLine (hne : words ≠ [])
    (hrun : (s.runLine (quotedLine words)).run m = ((r, s'), m')) (hconsole : m'.console = none) :
    (s.takeLine (typedLine words)).run m =
      ((.ok true, s'), m'.withJournal (m'.journal ++ report r)) := by
  have htrim := trim_typed hne
  have hblank : trim (quotedLine words ++ "\n") ≠ "" := by
    rw [htrim]
    intro hline
    have hhead := head_quotedLine hne
    rw [hline] at hhead
    cases hhead
  have hexit : isExit (trim (quotedLine words ++ "\n")) = false := by
    rw [htrim]
    exact isExit_quotedLine hne
  have hanswer : s.takeLine (typedLine words) = s.answerLine (quotedLine words ++ "\n") := by
    simp only [takeLine, typedLine, fromUTF8?_bytes]
  rw [← htrim] at hrun
  rw [hanswer]
  exact answerLine_run hblank hexit hrun hconsole

/-- At the end of the input a session shows its prompt once more, and a line feed. -/
lemma takeLines_nil_run (s : Session) (h : m.console = none) : (s.takeLines []).run m =
    ((.ok (), s), m.withJournal (m.journal ++ [.shown promptText] ++ [.shown "\n"])) := by
  have hprompt : prompt.run.run m = (.ok (), m.withJournal (m.journal ++ [.shown promptText])) :=
    display_run _ _ h
  have hend := display_run (m := m.withJournal (m.journal ++ [.shown promptText])) "\n" false h
  exact (Act.run_bind_of hprompt).trans (Act.run_bind_of hend)

/-- **A session that is fed one typed line** tells what comes of it between its opening and its
closing. -/
lemma interact_typedLine (hne : words ≠ []) (hstart : m.console = none)
    (hrun : (s.runLine (quotedLine words)).run (m.withJournal (m.journal ++ opening)) =
      ((r, s'), m')) (hconsole : m'.console = none) :
    (s.interact [typedLine words]).run m =
      ((.ok (), s'), m'.withJournal (m'.journal ++ report r ++ closing)) := by
  have hgreet : greet.run m = ((), m.withJournal (m.journal ++ [greeting])) := rfl
  have hprompt : prompt.run.run (m.withJournal (m.journal ++ [greeting])) =
      (.ok (), m.withJournal (m.journal ++ opening)) :=
    (display_run (m := m.withJournal (m.journal ++ [greeting])) _ _ hstart).trans
      (Prod.ext rfl (congrArg m.withJournal (List.append_assoc ..)))
  have hline := takeLine_typedLine hne hrun hconsole
  have hend := takeLines_nil_run (m := m'.withJournal (m'.journal ++ report r)) s' hconsole
  have hlines : (s.takeLines [typedLine words]).run (m.withJournal (m.journal ++ [greeting])) = _ :=
    (Act.run_bind_of hprompt).trans ((Act.run_bind_of hline).trans hend)
  have hjournal : m'.journal ++ report r ++ [.shown promptText] ++ [.shown "\n"] ++
      [.logged .info "👋 Bye"] = m'.journal ++ report r ++ closing := by
    simp [closing]
  refine (Act.run_bind_of hgreet).trans ((Act.run_bind_of hlines).trans ?_)
  exact Prod.ext rfl (congrArg m'.withJournal hjournal)

/-- Where the console takes no text, the prompt fails, though its text may be taken at first. -/
lemma prompt_refused {refusal : Refusal} (h : m.console = some refusal) : prompt.run.run m =
    (.error (.output "<stdout>" refusal.reason), m.withJournal (m.journal ++
      if refusal.whenFlushed then [.shown promptText] else [])) := by
  have hwrite : prompt.run.run m =
      (Command.write m.console true (.shown promptText)).run.run m := rfl
  obtain ⟨whenFlushed, reason⟩ := refusal
  rw [hwrite, h]
  cases whenFlushed with
  | false => exact Prod.ext rfl (congrArg m.withJournal (List.append_nil _).symm)
  | true => rfl

/-- Where the console takes no text, a session ends at its first prompt. -/
lemma interact_refused (s : Session) (lines : List (List UInt8)) {refusal : Refusal}
    (h : m.console = some refusal) : (s.interact lines).run m =
      ((.error (.output "<stdout>" refusal.reason), s), m.withJournal (m.journal ++ greeting ::
        if refusal.whenFlushed then [.shown promptText] else [])) := by
  have hgreet : greet.run m = ((), m.withJournal (m.journal ++ [greeting])) := rfl
  have hprompt : prompt.run.run (m.withJournal (m.journal ++ [greeting])) =
      (.error (.output "<stdout>" refusal.reason), m.withJournal (m.journal ++ greeting ::
        if refusal.whenFlushed then [.shown promptText] else [])) :=
    (prompt_refused (m := m.withJournal (m.journal ++ [greeting])) h).trans
      (Prod.ext rfl (congrArg m.withJournal (List.append_assoc ..)))
  have hlines : (s.takeLines lines).run (m.withJournal (m.journal ++ [greeting])) =
      ((.error (.output "<stdout>" refusal.reason), s), m.withJournal (m.journal ++ greeting ::
        if refusal.whenFlushed then [.shown promptText] else [])) := by
    cases lines with
    | nil => exact Act.run_bind_of hprompt
    | cons line rest => exact Act.run_bind_of hprompt
  exact (Act.run_bind_of hgreet).trans (Act.run_bind_of hlines)

end Session

/-! ### The session and the command -/

namespace Program

variable {words : List String} {c : Line} {m : Machine}

/-- A session without options that is fed one line: the words between double quotes. -/
def typed (words : List String) : Act (Except Failure Unit) :=
  execute .bare (Session.linesOf (Session.typedLine words))

/-- The result of the command in that session. -/
def typedResult (words : List String) (m : Machine) : Except Failure Unit :=
  (((Session.start (Config.location m none) false).runLine (quotedLine words)).run
    (m.withJournal (m.journal ++ Session.opening))).1.1

/-- Words that are typed have the result of a session with the one line. -/
lemma typed_run {r : Except Failure Unit} {s : Session} {m' : Machine}
    (hfeed : ∀ w ∈ words, '\n' ∉ w.toList)
    (h : ((Session.start (Config.location m none) false).interact [Session.typedLine words]).run m =
      ((r, s), m')) : (typed words).run m = (r, m') := by
  have hrun : ∀ lines, (execute .bare lines).run m =
      ((((Session.start (Config.location m none) false).interact lines).run m).1.1,
        (((Session.start (Config.location m none) false).interact lines).run m).2) :=
    fun _ => rfl
  rw [typed, Session.linesOf_typedLine hfeed, hrun, h]

/-- A command leaves a trace. -/
lemma execute_leaves (horder : c.order.isSome = true) (m : Machine) :
    ∃ r t, (execute c []).Leaves m r t := by
  obtain ⟨order, horder⟩ := Option.isSome_iff_exists.mp horder
  have hany : (execute c []).Within .any := by
    unfold execute
    rw [horder]
    refine Act.within_get_bind (fun m => ?_) fun _ _ _ => rfl
    exact (Session.run_offstage _ _ _ _).any.bind fun _ => Act.within_pure _
  obtain ⟨r, t, ht, -⟩ := hany m
  exact ⟨r, t, ht⟩

/-- A command line with an order has words. -/
lemma ne_nil_of_parse (hparse : parse words = .ok c) (horder : c.order.isSome = true) :
    words ≠ [] := by
  rintro rfl
  have hbare : parse [] = .ok .bare := rfl
  rw [hbare] at hparse
  obtain rfl := Except.ok.inj hparse
  cases horder

/-- **What the session does is what the command does**, taken as the session takes it, within a
frame. -/
lemma typed_frames (hfeed : ∀ w ∈ words, '\n' ∉ w.toList) (hparse : parse words = .ok c)
    (horder : c.order.isSome = true) (hconsole : m.console = none) :
    ∃ r t, (execute (c.takenAt (Config.location m none)) []).run m = (r, m.after t) ∧
      typedResult words m = r ∧
      (typed words).run m = (.ok (), (m.after t).withJournal
        (m.journal ++ Session.opening ++ t.events ++ Session.report r ++ Session.closing)) := by
  have htaken : (c.takenAt (Config.location m none)).order.isSome = true := by
    rw [Line.order_takenAt, horder]
  obtain ⟨r, t, ht⟩ := execute_leaves htaken m
  -- what the session has told by then makes no difference to the command
  have hopening : m.CountsAs (m.journal ++ Session.opening) :=
    m.countsAs_append (by decide)
  have hown : Config.location (m.withJournal (m.journal ++ Session.opening)) none =
      Config.location m none := rfl
  obtain ⟨r', s, m', hline, hexecute⟩ := runTyped_execute hown (quotedLine words) horder
  rw [ht _ hopening] at hexecute
  obtain ⟨rfl, rfl⟩ := Prod.mk.inj hexecute
  have hrun := hline
  rw [← Session.runLine_quotedLine _ hparse] at hrun
  exact ⟨r, t, ht.run_eq, by rw [typedResult, hrun], typed_run hfeed
    (Session.interact_typedLine (ne_nil_of_parse hparse horder) hconsole hrun hconsole)⟩

end Program

end CodeReview
