import CodeReview.CommandLine.Basic
import Mathlib.Tactic

/-!
# The ways to write a review as a command line

The options of a review stand behind the name of its operation in any order, two of them have two
names, and the options that are understood everywhere stand before that name or behind it.
`Spells words options` says, without any reader, that `words` give `options`.

* `readPlace_of_forall₂`: a place that is written so is read word by word, each word settling its
  option.
* `parse_spelled`: every way to write a review, with whatever values, is read as that review.
-/

namespace CodeReview.CommandLine

/-! ### The grammar -/

/-- A word and the option that it gives. -/
inductive Gives : String → Key × String → Prop
  | file (v : String) : Gives ("--file=" ++ v) (.file, v)
  | language (v : String) : Gives ("--language=" ++ v) (.language, v)
  | fromLanguage (v : String) : Gives ("--from-language=" ++ v) (.language, v)
  | toLanguage (v : String) : Gives ("--to-language=" ++ v) (.toLanguage, v)
  | targetLanguage (v : String) : Gives ("--target-language=" ++ v) (.toLanguage, v)
  | model (v : String) : Gives ("--model=" ++ v) (.model, v)
  | output (v : String) : Gives ("--output=" ++ v) (.output, v)
  | configPath (v : String) : Gives ("--config-path=" ++ v) (.configPath, v)
  | waitOnRateLimit : Gives "--wait-on-rate-limit" (.waitOnRateLimit, "")

/-- The words give these options, one each, in any order. -/
def Spells (words : List String) (options : List (Key × String)) : Prop :=
  ∃ row, List.Forall₂ Gives words row ∧ row.Perm options

/-- An option, if there is a value for it. -/
def given (k : Key) (value? : Option String) : List (Key × String) := value?.toList.map (k, ·)

/-- What is said in one place about the options that are understood everywhere. -/
structure Flags where
  configPath : Option String
  waitOnRateLimit : Bool
  deriving Repr, DecidableEq

/-- The flags as options. -/
def Flags.options (f : Flags) : List (Key × String) :=
  given .configPath f.configPath ++
    given .waitOnRateLimit (if f.waitOnRateLimit then some "" else none)

/-- What is asked for, but for the operation, as options. -/
def reviewOptions (i : Invocation) : List (Key × String) :=
  given .file (some i.locator) ++ given .language i.language ++
    given .toLanguage i.targetLanguage ++ given .model i.model ++ given .output i.output

variable {s : Scope} {p : Progress} {k : Key} {o : Key × String} {word name value : String}
  {words rest : List String} {row settled options : List (Key × String)}

/-! ### Options by their keys -/

/-- Options that are given once each are found in any order. -/
lemma lookup_eq_of_perm {l l' : List (Key × String)} (h : l.Perm l')
    (hnodup : (l.map Prod.fst).Nodup) (k : Key) : l.lookup k = l'.lookup k := by
  induction h with
  | nil => rfl
  | cons o _ ih =>
      obtain ⟨key, v⟩ := o
      rw [List.lookup_cons, List.lookup_cons, ih (List.nodup_cons.mp hnodup).2]
  | swap o o' l =>
      obtain ⟨key, v⟩ := o
      obtain ⟨key', v'⟩ := o'
      have hne : key' ≠ key := by
        simp only [List.map_cons, List.nodup_cons, List.mem_cons, not_or] at hnodup
        exact hnodup.1.1
      simp only [List.lookup_cons]
      grind
  | trans h _ ih ih' => exact (ih hnodup).trans (ih' ((h.map Prod.fst).nodup hnodup))

/-- An option that may be given is found under its own key only. -/
@[simp] lemma lookup_given (k k' : Key) (value? : Option String) :
    (given k value?).lookup k' = if k' = k then value? else none := by
  cases value? <;> grind [given]

/-- An option that may be given has its own key or none. -/
lemma keys_given (k : Key) (value? : Option String) :
    ((given k value?).map Prod.fst).Sublist [k] := by
  cases value? <;> simp [given]

/-- The options that may be given, spelled out. -/
lemma mem_given {value? : Option String} : o ∈ given k value? ↔ o.1 = k ∧ value? = some o.2 := by
  cases value? <;> grind [given]

/-! ### One word -/

/-- A name that an option has is understood wherever the option may stand. -/
lemma named?_eq_some (hk : k ∈ s.keys) (hname : name = k.long ∨ k.alias? = some name) :
    s.named? name = some k := by
  rcases hname with rfl | halias
  · rcases s with _ | _ | op <;> cases k <;>
      simp_all [Scope.keys, Scope.named?, Key.long, Key.alias?]
  · cases k <;> cases halias <;> rcases s with _ | _ | op <;>
      simp_all [Scope.keys, Scope.named?, Key.long, Key.alias?]

/-- How a word is written that gives an option with a value. -/
lemma Gives.valued (h : Gives word (k, value)) (hk : k ≠ .waitOnRateLimit) :
    k.takesValue = true ∧ ∃ name, (name = k.long ∨ k.alias? = some name) ∧ '=' ∉ name.toList ∧
      word = "--" ++ name ++ "=" ++ value := by
  cases h with
  | fromLanguage => exact ⟨rfl, "from-language", .inr rfl, by decide, rfl⟩
  | targetLanguage => exact ⟨rfl, "target-language", .inr rfl, by decide, rfl⟩
  | waitOnRateLimit => exact absurd rfl hk
  | file | language | toLanguage | model | output | configPath =>
      exact ⟨rfl, _, .inl rfl, by decide, rfl⟩

/-- A name with an equals sign behind it is read as the option of that name with the value that
follows. -/
lemma readLong_valued (hk : k ∈ s.keys) (htakes : k.takesValue = true)
    (hname : name = k.long ∨ k.alias? = some name) (hequals : '=' ∉ name.toList) :
    readLong s p (name.toList ++ '=' :: value.toList) = p.add k value := by
  have hall : ∀ c ∈ name.toList, decide (c ≠ '=') = true := by
    intro c hc
    simpa using ne_of_mem_of_not_mem hc hequals
  have htake : (name.toList ++ '=' :: value.toList).takeWhile (· ≠ '=') = name.toList := by
    rw [List.takeWhile_append_of_pos hall, List.takeWhile_cons_of_neg (by decide), List.append_nil]
  have hdrop : (name.toList ++ '=' :: value.toList).dropWhile (· ≠ '=') =
      '=' :: value.toList := by
    rw [List.dropWhile_append_of_pos hall, List.dropWhile_cons_of_neg (by decide)]
  simp only [readLong, htake, hdrop, String.ofList_toList, named?_eq_some hk hname, htakes,
    if_true, Option.elim]

/-- No command has a name that begins with a hyphen. -/
lemma ofName?_of_dash {letters : List Char} (hword : word.toList = '-' :: letters) :
    Verb.ofName? word = none := by
  have hverbs : Verb.all.all (fun v => v.name.toList.head? != some '-') = true := by decide
  refine List.find?_eq_none.mpr fun v hv hname => ?_
  have hhead := List.all_eq_true.mp hverbs v hv
  rw [beq_iff_eq.mp hname, hword] at hhead
  simp at hhead

/-- A word that begins with two hyphens, and is more than them, is read as an option. -/
lemma readPlace_long {c : Char} {letters : List Char} (hp : p.pending = none)
    (hword : word.toList = '-' :: '-' :: c :: letters) :
    readPlace s p (word :: rest) = (readLong s p (c :: letters)).bind (readPlace s · rest) := by
  have hwaiting : p.isWaiting = false := by rw [Progress.isWaiting, hp]
  have hhelp : (word == "help") = false := by
    refine beq_false_of_ne ?_
    rintro rfl
    exact absurd (congrArg List.head? hword) (by simp)
  rw [readPlace.eq_def]
  simp only [hwaiting, ofName?_of_dash hword, hword, hhelp, ite_self, Bool.and_false,
    Bool.false_eq_true, if_false]
  rfl

/-- The flag that has reviews wait is read without a value. -/
lemma readLong_waitOnRateLimit (hk : .waitOnRateLimit ∈ s.keys) :
    readLong s p "wait-on-rate-limit".toList = p.add .waitOnRateLimit "" := by
  have hnamed : s.named? "wait-on-rate-limit" = some .waitOnRateLimit :=
    named?_eq_some hk (.inl rfl)
  have htake : "wait-on-rate-limit".toList.takeWhile (· ≠ '=') = "wait-on-rate-limit".toList := rfl
  have hdrop : "wait-on-rate-limit".toList.dropWhile (· ≠ '=') = [] := rfl
  simp only [readLong, htake, hdrop, String.ofList_toList, hnamed]
  rfl

/-- A word settles the option that it gives. -/
lemma readPlace_gives (h : Gives word o) (hk : o.1 ∈ s.keys) (hp : p.pending = none) :
    readPlace s p (word :: rest) = (p.settle o.1 o.2).bind (readPlace s · rest) := by
  obtain ⟨k, value⟩ := o
  have hadd : ∀ v, p.add k v = p.settle k v := by
    intro v
    rw [Progress.add, Progress.resolve, hp]
    rfl
  rw [← hadd]
  by_cases hwait : k = .waitOnRateLimit
  · subst hwait
    cases h
    rw [readPlace_long hp rfl]
    exact congrArg (Except.bind · _) (readLong_waitOnRateLimit hk)
  · obtain ⟨htakes, name, hname, hequals, rfl⟩ := h.valued hwait
    have hword : ("--" ++ name ++ "=" ++ value).toList =
        '-' :: '-' :: (name.toList ++ '=' :: value.toList) := by simp
    cases hchars : name.toList ++ '=' :: value.toList with
    | nil => simp at hchars
    | cons c letters =>
        rw [readPlace_long hp (hchars ▸ hword), ← hchars,
          readLong_valued hk htakes hname hequals]

/-! ### A row of words -/

/-- An option that is new, and not a path without characters, is settled. -/
lemma settle_eq_ok (hnew : o.1 ∉ p.settled.map Prod.fst) (hpath : o.1.kind = .path → o.2 ≠ "") :
    p.settle o.1 o.2 = .ok { p with settled := p.settled ++ [o] } := by
  have hlookup : p.settled.lookup o.1 = none := by
    refine List.lookup_eq_none_iff.mpr fun o' ho' => bne_iff_ne.mpr ?_
    intro hkey
    exact hnew (hkey ▸ List.mem_map_of_mem ho')
  have hempty : (decide (o.1.kind = .path) && o.2 == "") = false := by
    by_cases hkind : o.1.kind = .path
    · simp [hpath hkind]
    · simp [hkind]
  simp [Progress.settle, hlookup, hempty]

/-- Words that give options of their place, none twice, are read one by one, whatever stands behind
them. -/
lemma readPlace_of_forall₂ (h : List.Forall₂ Gives words row) (hkeys : ∀ o ∈ row, o.1 ∈ s.keys)
    (hnodup : ((settled ++ row).map Prod.fst).Nodup)
    (hpaths : ∀ o ∈ row, o.1.kind = .path → o.2 ≠ "") :
    readPlace s ⟨settled, none⟩ (words ++ rest) = readPlace s ⟨settled ++ row, none⟩ rest := by
  induction h generalizing settled with
  | nil => simp
  | @cons word o words row hword _ ih =>
      rw [List.forall_mem_cons] at hkeys hpaths
      have hnew : o.1 ∉ settled.map Prod.fst := by
        rw [List.map_append, List.map_cons, List.nodup_middle, List.nodup_cons] at hnodup
        exact fun hmem => hnodup.1 (List.mem_append_left _ hmem)
      have hsettle := settle_eq_ok (p := ⟨settled, none⟩) hnew hpaths.1
      rw [List.cons_append, readPlace_gives hword hkeys.1 rfl, hsettle]
      have hnodup' : ((settled ++ [o] ++ row).map Prod.fst).Nodup := by
        rwa [List.append_assoc, List.singleton_append]
      have hrest := ih hkeys.2 hnodup' hpaths.2
      rwa [List.append_assoc] at hrest

/-- Options that can be given in a place together. -/
structure Placed (s : Scope) (options : List (Key × String)) : Prop where
  keys : ∀ o ∈ options, o.1 ∈ s.keys
  nodup : (options.map Prod.fst).Nodup
  quiet : .verbose ∉ options.map Prod.fst
  paths : ∀ o ∈ options, o.1.kind = .path → o.2 ≠ ""

/-- Whether options can be given together does not depend on their order. -/
lemma Placed.of_perm (h : Placed s options) (hrow : row.Perm options) : Placed s row where
  keys o ho := h.keys o (hrow.subset ho)
  nodup := (hrow.map Prod.fst).nodup_iff.mpr h.nodup
  quiet hmem := h.quiet ((hrow.map Prod.fst).subset hmem)
  paths o ho := h.paths o (hrow.subset ho)

/-- What is read of words that spell options of their place. -/
lemma Placed.readPlace_of_spells (h : Placed s options) (hwords : Spells words options) :
    ∃ row, row.Perm options ∧
      ∀ rest, readPlace s .empty (words ++ rest) = readPlace s ⟨row, none⟩ rest := by
  obtain ⟨row, hwords, hrow⟩ := hwords
  have hplaced := h.of_perm hrow
  exact ⟨row, hrow, fun rest =>
    readPlace_of_forall₂ hwords hplaced.keys hplaced.nodup hplaced.paths⟩

/-- What a command finds among its options does not depend on their order. -/
lemma Placed.value?_eq (h : Placed s options) (hrow : row.Perm options) (k : Key) :
    (⟨row, none⟩ : Progress).value? k = options.lookup k :=
  lookup_eq_of_perm hrow (h.of_perm hrow).nodup k

/-- Options of this kind say nothing about how much is logged. -/
lemma Placed.count_verbose (h : Placed s row) : (⟨row, none⟩ : Progress).count .verbose = 0 := by
  rw [Progress.count, List.length_eq_zero_iff, List.filter_eq_nil_iff]
  intro o ho hkey
  exact h.quiet (eq_of_beq hkey ▸ List.mem_map_of_mem ho)

/-- The name of an operation ends the place before it. -/
lemma readPlace_name (o : Operation) (hp : p.pending = none) :
    readPlace none p (o.name :: rest) = .ok (p, some (.review o, rest)) := by
  have hname : Verb.ofName? o.name = some (.review o) := by cases o <;> decide
  rw [readPlace.eq_def]
  simp [Progress.isWaiting, hp, hname]

/-- A line whose two places are read to their ends, with nothing left to settle. -/
lemma parse_of_places {v : Verb} {order : Order} {outer inner : List (Key × String)}
    (houter : readPlace none .empty words = .ok (⟨outer, none⟩, some (v, rest)))
    (hinner : readPlace (some v) .empty rest = .ok (⟨inner, none⟩, none))
    (horder : orderOf v ⟨inner, none⟩ = .ok order) :
    parse words = .ok (lineOf ⟨outer, none⟩ ⟨inner, none⟩ (some order)) := by
  rw [parse, houter]
  simp only [bind, Except.bind, hinner, Progress.resolve, horder]

/-! ### A review -/

/-- A flag is given where it has a value, which is empty. -/
@[simp] lemma isSome_switch (isGiven : Bool) :
    (if isGiven then some "" else none : Option String).isSome = isGiven := by
  cases isGiven <;> rfl

/-- Flags are found as they were given. -/
lemma Flags.lookup_options (f : Flags) (k : Key) :
    f.options.lookup k =
      match k with
      | .configPath => f.configPath
      | .waitOnRateLimit => if f.waitOnRateLimit then some "" else none
      | _ => none := by
  cases k <;> simp [options, List.lookup_append]

/-- What is asked for is found as it was given. -/
lemma lookup_reviewOptions (i : Invocation) (k : Key) :
    (reviewOptions i).lookup k =
      match k with
      | .file => some i.locator
      | .language => i.language
      | .toLanguage => i.targetLanguage
      | .model => i.model
      | .output => i.output
      | _ => none := by
  cases k <;> simp [reviewOptions, List.lookup_append]

/-- The keys of flags, in the order in which they are listed. -/
lemma Flags.keys_options (f : Flags) :
    (f.options.map Prod.fst).Sublist [.configPath, .waitOnRateLimit] := by
  rw [options, List.map_append]
  exact (keys_given _ _).append (keys_given _ _)

/-- The keys of what is asked for, in the order in which they are listed. -/
lemma keys_reviewOptions (i : Invocation) :
    ((reviewOptions i).map Prod.fst).Sublist [.file, .language, .toLanguage, .model, .output] := by
  simp only [reviewOptions, List.map_append]
  exact ((((keys_given _ _).append (keys_given _ _)).append (keys_given _ _)).append
    (keys_given _ _)).append (keys_given _ _)

/-- Options can be given together if their keys are different ones of the place. -/
lemma placed_of_keys {keys : List Key} (h : (options.map Prod.fst).Sublist keys)
    (hkeys : keys ⊆ s.keys) (hnodup : keys.Nodup) (hquiet : .verbose ∉ keys)
    (hpaths : ∀ o ∈ options, o.1.kind = .path → o.2 ≠ "") : Placed s options where
  keys _ ho := hkeys (h.subset (List.mem_map_of_mem ho))
  nodup := hnodup.sublist h
  quiet hmem := hquiet (h.subset hmem)
  paths := hpaths

/-- Flags have no path without characters if that of the configuration has one. -/
lemma Flags.paths_options {f : Flags} (h : f.configPath ≠ some "") :
    ∀ o ∈ f.options, o.1.kind = .path → o.2 ≠ "" := by
  intro o ho hkind hempty
  simp only [options, List.mem_append, mem_given] at ho
  rcases ho with ⟨-, hvalue⟩ | ⟨hkey, -⟩
  · exact h (hempty ▸ hvalue)
  · rw [hkey] at hkind
    cases hkind

/-- What is asked for has no path without characters if that of the output has one. -/
lemma paths_reviewOptions {i : Invocation} (h : i.output ≠ some "") :
    ∀ o ∈ reviewOptions i, o.1.kind = .path → o.2 ≠ "" := by
  intro o ho hkind hempty
  simp only [reviewOptions, List.mem_append, mem_given] at ho
  rcases ho with (((⟨hkey, -⟩ | ⟨hkey, -⟩) | ⟨hkey, -⟩) | ⟨hkey, -⟩) | ⟨-, hvalue⟩
  case inr => exact h (hempty ▸ hvalue)
  all_goals
    rw [hkey] at hkind
    cases hkind

/-- Flags can be given in front of the name of an operation. -/
lemma placed_outer {f : Flags} (h : f.configPath ≠ some "") : Placed none f.options :=
  placed_of_keys f.keys_options (by decide) (by decide) (by decide) (Flags.paths_options h)

/-- Flags and what is asked for can be given together behind it. -/
lemma placed_inner {f : Flags} {i : Invocation} (hf : f.configPath ≠ some "")
    (hi : i.output ≠ some "") :
    Placed (some (.review i.operation)) (f.options ++ reviewOptions i) := by
  have hkeys : ((f.options ++ reviewOptions i).map Prod.fst).Sublist
      ([.configPath, .waitOnRateLimit] ++ [.file, .language, .toLanguage, .model, .output]) := by
    rw [List.map_append]
    exact f.keys_options.append (keys_reviewOptions i)
  refine placed_of_keys hkeys ?_ (by decide) (by decide) ?_
  · intro k hk
    fin_cases hk <;> simp [Scope.keys]
  · exact List.forall_mem_append.mpr ⟨Flags.paths_options hf, paths_reviewOptions hi⟩

/-- A review whose options stand behind the name of its operation, together with flags. -/
lemma parse_of_spells {outer : List (Key × String)} {f : Flags} {i : Invocation}
    {before behind : List String} (houter : Placed none outer)
    (hinner : Placed (some (.review i.operation)) (f.options ++ reviewOptions i))
    (hbefore : Spells before outer) (hbehind : Spells behind (f.options ++ reviewOptions i)) :
    parse (before ++ i.operation.name :: behind) =
      .ok ⟨f.configPath.or (outer.lookup .configPath),
        f.waitOnRateLimit || (outer.lookup .waitOnRateLimit).isSome, 0, some (.review i)⟩ := by
  obtain ⟨rowOuter, hrowOuter, hreadOuter⟩ := houter.readPlace_of_spells hbefore
  obtain ⟨rowInner, hrowInner, hreadInner⟩ := hinner.readPlace_of_spells hbehind
  have hplaceOuter := (hreadOuter (i.operation.name :: behind)).trans
    (readPlace_name i.operation rfl)
  have hplaceInner := hreadInner []
  rw [List.append_nil] at hplaceInner
  have hvalues : ∀ k, (⟨rowInner, none⟩ : Progress).value? k =
      (f.options.lookup k).or ((reviewOptions i).lookup k) := by
    intro k
    rw [hinner.value?_eq hrowInner, List.lookup_append]
  have horder : orderOf (.review i.operation) ⟨rowInner, none⟩ = .ok (.review i) := by
    simp [orderOf, hvalues, Flags.lookup_options, lookup_reviewOptions]
  rw [parse_of_places hplaceOuter hplaceInner horder]
  simp [lineOf, houter.value?_eq hrowOuter, hvalues, Flags.lookup_options, lookup_reviewOptions,
    (houter.of_perm hrowOuter).count_verbose, (hinner.of_perm hrowInner).count_verbose]

/-- **A review is read back from every way to write it**: behind the name of the operation its
options stand in any order, among them flags that may also stand before that name, where those
behind it count if both say something.  Values are any texts; only a path has to have a
character. -/
theorem parse_spelled {i : Invocation} {outer inner : Flags} {before behind : List String}
    (hbefore : Spells before outer.options)
    (hbehind : Spells behind (inner.options ++ reviewOptions i))
    (houter : outer.configPath ≠ some "") (hinner : inner.configPath ≠ some "")
    (houtput : i.output ≠ some "") :
    parse (before ++ i.operation.name :: behind) =
      .ok ⟨inner.configPath.or outer.configPath,
        inner.waitOnRateLimit || outer.waitOnRateLimit, 0, some (.review i)⟩ := by
  rw [parse_of_spells (placed_outer houter) (placed_inner hinner houtput) hbefore hbehind]
  simp [Flags.lookup_options]

/-- Both names that are second ones, flags on both sides, values that are empty, hold an equals sign
or begin with hyphens. -/
theorem parse_spelled_crossed :
    parse ["--wait-on-rate-limit", "--config-path=-", "convert-language", "--output=--file=x",
        "--target-language=", "--config-path=a b", "--file=-", "--from-language=c=--"] =
      .ok ⟨some "a b", true, 0, some (.review
        ⟨.convertLanguage, "-", some "c=--", some "", none, some "--file=x"⟩)⟩ :=
  @parse_spelled ⟨.convertLanguage, "-", some "c=--", some "", none, some "--file=x"⟩
    ⟨some "-", true⟩ ⟨some "a b", false⟩ ["--wait-on-rate-limit", "--config-path=-"]
    ["--output=--file=x", "--target-language=", "--config-path=a b", "--file=-",
      "--from-language=c=--"]
    ⟨[(.waitOnRateLimit, ""), (.configPath, "-")],
      .cons .waitOnRateLimit (.cons (.configPath "-") .nil), by decide⟩
    ⟨[(.output, "--file=x"), (.toLanguage, ""), (.configPath, "a b"), (.file, "-"),
        (.language, "c=--")],
      .cons (.output "--file=x") (.cons (.targetLanguage "") (.cons (.configPath "a b")
        (.cons (.file "-") (.cons (.fromLanguage "c=--") .nil)))), by decide⟩
    (by decide) (by decide) (by decide)

end CodeReview.CommandLine
