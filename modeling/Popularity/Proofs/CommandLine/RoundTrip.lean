import Popularity.Proofs.CommandLine.Written
import Popularity.Proofs.Except
import Mathlib.Data.List.TakeDrop

/-!
# Command lines are read as they are written

An argument that holds an option with its value is dealt with at once, so a side of the command line
is read by taking up its options one after another. While each of them has a text for the value of
one invocation, what has been taken up is what that invocation gives to the options met so far,
and in the end it is all of it.

So it makes no difference in which order the options stand, nor on which side those stand that go
with every command. What is left out is missed if the command cannot do without it, and a number out
of range is not taken for an id.

## Main definitions

* `Given.only` — the values of some options
* `Given.takeAll` — options taken up one after another

## Main results

* `Invocation.parse_line` — a line is read side by side
* `Given.take_only`, `Given.takeAll_only`
* `Given.command?_only_eq_none`, `Invocation.command?_given`, `Invocation.overrides_given`
* `Invocation.line_round_trip`
-/

namespace Popularity

variable {f : Flag} {value : String} {fs : List Flag} {os : List (Flag × String)}

/-! ### Arguments with an option and its value -/

namespace Flag

theorem long_injective : Function.Injective long := by
  intro f g h
  cases f <;> cases g <;> first | rfl | exact absurd h (by decide)

theorem eq_notMem_long (f : Flag) : '=' ∉ f.long.toList := by
  cases f <;> decide +kernel

theorem find?_long (h : f ∈ fs) : fs.find? (·.long == f.long) = some f := by
  induction fs with
  | nil => cases h
  | cons g fs ih =>
    by_cases hg : g = f
    · subst hg
      exact List.find?_cons_of_pos (by simp)
    · have hlong : (g.long == f.long) = false := beq_false_of_ne fun heq => hg (long_injective heq)
      have hf : f ∈ fs := (List.mem_cons.mp h).resolve_left (Ne.symm hg)
      simp only [List.find?_cons, hlong, ih hf]

theorem toList_assign (f : Flag) (value : String) :
    (f.assign value).toList = '-' :: '-' :: (f.long.toList ++ '=' :: value.toList) := by
  simp [assign]

theorem span_long (f : Flag) (value : String) :
    (f.long.toList ++ '=' :: value.toList).span (· ≠ '=')
      = (f.long.toList, '=' :: value.toList) := by
  have hlong : ∀ c ∈ f.long.toList, decide (c ≠ '=') = true := by
    intro c hc
    exact decide_eq_true fun heq => f.eq_notMem_long (heq ▸ hc)
  rw [List.span_eq_takeWhile_dropWhile, List.takeWhile_append_of_pos hlong,
    List.dropWhile_append_of_pos hlong, List.takeWhile_cons_of_neg (by simp),
    List.dropWhile_cons_of_neg (by simp), List.append_nil]

end Flag

/-- The options of a command are its own. -/
theorem Verb.notMem_globals (verb : Verb) : ∀ f ∈ verb.flags, f ∉ Flag.globals := by
  cases verb <;> decide

namespace Scan

theorem shape_assign (f : Flag) (value : String) :
    shape (f.assign value) = .long f.long (some value) := by
  obtain ⟨c, cs, hcs⟩ : ∃ c cs, f.long.toList = c :: cs := by
    cases f <;> exact ⟨_, _, rfl⟩
  have hspan := f.span_long value
  rw [shape, Flag.toList_assign, hcs, List.cons_append]
  rw [hcs, List.cons_append] at hspan
  simp only [hspan, ← hcs, String.ofList_toList]

theorem ofWord?_assign (f : Flag) (value : String) : Verb.ofWord? (f.assign value) = none := by
  have hdash : ∀ v ∈ Verb.all, v.word.toList.head? ≠ some '-' := by decide +kernel
  rw [Verb.ofWord?, List.find?_eq_none]
  intro v hv heq
  refine hdash v hv ?_
  rw [eq_of_beq heq, Flag.toList_assign, List.head?_cons]

theorem assign_ne_help (f : Flag) (value : String) : f.assign value ≠ "help" := by
  intro heq
  have hhead := congrArg (fun s => s.toList.head?) heq
  simp only [Flag.toList_assign, List.head?_cons] at hhead
  exact absurd hhead (by decide +kernel)

theorem meetRequest?_assign (s : Scan) (versioned : Bool) (f : Flag) (value : String) :
    s.meetRequest? versioned (.long f.long (some value)) = none := by
  have hhelp : f.long ≠ "help" := by cases f <;> decide
  have hversion : f.long ≠ "version" := by cases f <;> decide
  rw [meetRequest?] <;> simp_all

/-- An option with its value is taken up at once. -/
theorem meet_assign {known : List Flag} (hf : f ∈ known) (g : Given) (versioned : Bool)
    (stray : UsageError) :
    meet { given := g } known versioned stray (f.assign value)
      = (g.take f value).map fun g => { given := g } := by
  rw [meet, shape_assign, meetRequest?_assign]
  dsimp only
  rw [meetLong, Flag.find?_long hf]
  rfl

end Scan

/-! ### Options one after another -/

/-- Takes up the values of several options. -/
def Given.takeAll (g : Given) (os : List (Flag × String)) : Except UsageError Given :=
  os.foldlM (fun g o => g.take o.1 o.2) g

theorem Given.takeAll_cons (g : Given) (o : Flag × String) (os : List (Flag × String)) :
    g.takeAll (o :: os) = g.take o.1 o.2 >>= fun g => g.takeAll os :=
  List.foldlM_cons

theorem Given.takeAll_append (g : Given) (os os' : List (Flag × String)) :
    g.takeAll (os ++ os') = g.takeAll os >>= fun g => g.takeAll os' :=
  List.foldlM_append

namespace Scan

theorem after_assigns {verb : Verb} (hos : ∀ o ∈ os, o.1 ∈ Flag.globals ++ verb.flags)
    (g : Given) :
    after verb { given := g } (os.map fun o => o.1.assign o.2) = g.takeAll os := by
  induction os generalizing g with
  | nil => rfl
  | cons o os ih =>
    rw [List.map_cons, after, shape_assign, if_neg nofun,
      meet_assign (hos o List.mem_cons_self), Given.takeAll_cons]
    cases g.take o.1 o.2 with
    | error why => rfl
    | ok g => exact ih (fun o ho => hos o (List.mem_cons_of_mem _ ho)) g

theorem before_assigns (hos : ∀ o ∈ os, o.1 ∈ Flag.globals) (g : Given) (verb : Verb)
    (args : List String) :
    before { given := g } (os.map (fun o => o.1.assign o.2) ++ verb.word :: args)
      = (g.takeAll os).map fun g => ({ given := g }, some (verb, args)) := by
  induction os generalizing g with
  | nil =>
    have hverb : Verb.ofWord? verb.word = some verb := by cases verb <;> decide
    rw [List.map_nil, List.nil_append]
    simp only [before, awaits, Option.any_none, Bool.false_eq_true, if_false, hverb]
    rfl
  | cons o os ih =>
    rw [List.map_cons, List.cons_append]
    simp only [before, awaits, Option.any_none, Bool.false_eq_true, if_false, ofWord?_assign,
      assign_ne_help, decide_false, Bool.and_false, shape_assign, reduceCtorEq]
    rw [meet_assign (hos o List.mem_cons_self), Given.takeAll_cons]
    cases g.take o.1 o.2 with
    | error why => rfl
    | ok g => exact ih (fun o ho => hos o (List.mem_cons_of_mem _ ho)) g

end Scan

namespace Invocation

theorem pathOr_none (g : Given) : pathOr g none = .ok none := by
  unfold pathOr
  cases g.configFile <;> rfl

/-- **A line is read side by side**, and then put together. -/
theorem parse_line {verb : Verb} {before after : List (Flag × String)}
    (hbefore : ∀ o ∈ before, o.1 ∈ Flag.globals)
    (hafter : ∀ o ∈ after, o.1 ∈ Flag.globals ++ verb.flags) :
    parse (line verb before after) none = (do
      let b ← Given.takeAll {} before
      let a ← Given.takeAll {} after
      match a.command? verb with
      | none => throw .missingArgument
      | some command =>
        return { command, overrides := b.overrides a,
                 configFile := a.configFile <|> b.configFile }) := by
  rw [parse, line, Scan.before_assigns hbefore]
  cases Given.takeAll {} before with
  | error why => rfl
  | ok b =>
    simp only [Except.map, bind, Except.bind]
    rw [Scan.after_assigns hafter]
    cases Given.takeAll {} after with
    | error why => rfl
    | ok a =>
      simp only [pathOr_none, Scan.resolve]
      cases a.command? verb with
      | none => rfl
      | some command =>
        cases a.configFile <;> cases b.configFile <;> rfl

end Invocation

/-! ### Values taken up -/

namespace Given

variable {g : Given}

/-- The values of some options. -/
def only (g : Given) (fs : List Flag) : Given where
  configFile := if .configFile ∈ fs then g.configFile else none
  databaseUrl := if .databaseUrl ∈ fs then g.databaseUrl else none
  maxConnections := if .maxConnections ∈ fs then g.maxConnections else none
  logLevel := if .logLevel ∈ fs then g.logLevel else none
  logJson := if .logJson ∈ fs then g.logJson else none
  cacheEnabled := if .cacheEnabled ∈ fs then g.cacheEnabled else none
  backgroundTimeout := if .backgroundTimeout ∈ fs then g.backgroundTimeout else none
  kind := if .kind ∈ fs then g.kind else none
  id := if .id ∈ fs then g.id else none
  user := if .user ∈ fs then g.user else none
  folder := if .folder ∈ fs then g.folder else none
  ids := if .ids ∈ fs then g.ids else none

theorem has_only_of_notMem (hf : f ∉ fs) : (g.only fs).has f = false := by
  cases f <;> simp [has, only, hf]

theorem has_of_writes (h : g.Writes f value) : g.has f = true := by
  cases f <;> simp only [Writes] at h <;> simp only [has]
  case configFile | databaseUrl | logLevel | kind => rw [h]; rfl
  all_goals
    obtain ⟨a, ha, -⟩ := h
    rw [ha]
    rfl

/-- **A text for a value is taken up as that value.** -/
theorem take_only (hpath : g.configFile ≠ some "") (hids : g.ids ≠ some []) (hf : f ∉ fs)
    (h : g.Writes f value) : (g.only fs).take f value = .ok (g.only (fs ++ [f])) := by
  have hnew : ¬ (decide (f ≠ .ids) && (g.only fs).has f) = true := by
    simp [has_only_of_notMem hf]
  rw [take.eq_def, if_neg hnew]
  cases f with
  | configFile =>
    have hvalue : ¬ value = "" := fun heq => hpath (heq ▸ h)
    have hread : readPath value = .ok value := by simp [readPath, hvalue]
    have hpath : g.configFile = some value := h
    simp [only, hpath, hread]
  | databaseUrl | logLevel | kind => simp_all [only, Writes]
  | maxConnections =>
    obtain ⟨n, hn, rfl⟩ := h
    simp [only, hn, readCount?_text, wellFormed]
  | logJson | cacheEnabled =>
    obtain ⟨b, hb, hspells⟩ := h
    simp [only, hb, readBool?_of_spellsBool hspells, wellFormed]
  | backgroundTimeout =>
    obtain ⟨n, hn, rfl⟩ := h
    simp [only, hn, readTime?_text, wellFormed]
  | id | user | folder =>
    obtain ⟨n, hn, rfl⟩ := h
    simp [only, hn, readWord?_text, wellFormed]
  | ids =>
    obtain ⟨ns, hns, rfl⟩ := h
    have hne : ns ≠ [] := fun heq => hids (heq ▸ hns)
    simp [only, hns, readWords?_commas hne, wellFormed, hf]

/-- **Texts for values are taken up as those values**, in any order. -/
theorem takeAll_only (hpath : g.configFile ≠ some "") (hids : g.ids ≠ some [])
    (hnodup : (os.map Prod.fst).Nodup) (hfs : ∀ o ∈ os, o.1 ∉ fs)
    (h : ∀ o ∈ os, g.Writes o.1 o.2) :
    (g.only fs).takeAll os = .ok (g.only (fs ++ os.map Prod.fst)) := by
  induction os generalizing fs with
  | nil => rw [List.map_nil, List.append_nil]; rfl
  | cons o os ih =>
    obtain ⟨ho, hnodup⟩ := List.nodup_cons.mp hnodup
    have hnew : ∀ o' ∈ os, o'.1 ∉ fs ++ [o.1] := by
      intro o' ho' hmem
      rcases List.mem_append.mp hmem with hmem | hmem
      · exact hfs o' (List.mem_cons_of_mem _ ho') hmem
      · exact ho (List.mem_singleton.mp hmem ▸ List.mem_map_of_mem ho')
    rw [takeAll_cons, bind_of_eq_ok
        (take_only hpath hids (hfs o List.mem_cons_self) (h o List.mem_cons_self)),
      ih hnodup hnew fun o' ho' => h o' (List.mem_cons_of_mem _ ho'), List.map_cons,
      List.append_assoc, List.singleton_append]

theorem takeAll_empty (hpath : g.configFile ≠ some "") (hids : g.ids ≠ some [])
    (hnodup : (os.map Prod.fst).Nodup) (h : ∀ o ∈ os, g.Writes o.1 o.2) :
    takeAll {} os = .ok (g.only (os.map Prod.fst)) :=
  have hnew : ∀ o ∈ os, o.1 ∉ [] := fun _ _ => List.not_mem_nil
  takeAll_only hpath hids hnodup hnew h

/-- A number out of range is not taken up. -/
theorem take_of_strays (hf : (g.has f) = false) (h : f.Strays value) :
    g.take f value = .error .malformedValue := by
  rw [take.eq_def, if_neg (by simp [hf])]
  cases f with
  | id | user | folder =>
    obtain ⟨n, hn, rfl⟩ := h
    simp [readWord?_of_outside hn, wellFormed]
  | ids =>
    obtain ⟨ns, hns, rfl⟩ := h
    simp [readWords?_of_outside hns, wellFormed]
  | configFile | databaseUrl | maxConnections | logLevel | logJson | cacheEnabled
  | backgroundTimeout | kind => exact h.elim

/-! ### What values add up to -/

/-- A command that misses an option that it needs is not complete. -/
theorem command?_only_eq_none {verb : Verb} (hf : f ∈ verb.required) (hfs : f ∉ fs) :
    (g.only fs).command? verb = none := by
  cases verb <;> simp [Verb.required, Verb.flags] at hf <;>
    rcases hf with rfl | rfl | rfl | rfl <;> simp [command?, only, hfs]

theorem or_ite {α : Type} {x : Option α} {p q : Prop} [Decidable p] [Decidable q]
    (h : x.isSome = true → p ∨ q) :
    ((if q then x else none) <|> (if p then x else none)) = x := by
  cases x with
  | none => split <;> split <;> rfl
  | some a =>
    rcases h rfl with hp | hq
    · rw [if_pos hp]
      split <;> rfl
    · rw [if_pos hq]
      rfl

end Given

namespace Invocation

variable {v : Invocation} {before after : List (Flag × String)}

/-- Only options that go with the command have values. -/
theorem mem_of_has (h : v.given.has f = true) : f ∈ Flag.globals ++ v.command.verb.flags := by
  obtain ⟨command, path, overrides⟩ := v
  cases command <;> cases f <;> simp_all [given, Command.given, Given.has, Flag.globals,
    Command.verb, Verb.flags]

/-- The options of a command make up the command. -/
theorem command?_given (h : ∀ f ∈ v.command.verb.flags, v.given.has f = true → f ∈ fs) :
    (v.given.only fs).command? v.command.verb = some v.command := by
  obtain ⟨command, path, overrides⟩ := v
  cases command with
  | showItem i user =>
    cases user <;> simp_all [Given.only, given, Command.given, Given.has, Given.command?,
      Command.verb, Verb.flags]
  | migrate | read | like | unlike | collect | uncollect | stats =>
    simp_all [Given.only, given, Command.given, Given.has, Given.command?, Command.verb,
      Verb.flags]

/-- The options that go with every command may stand on either side. -/
theorem overrides_given {fs fs' : List Flag}
    (h : ∀ f ∈ Flag.globals, v.given.has f = true → f ∈ fs ∨ f ∈ fs') :
    (v.given.only fs).overrides (v.given.only fs') = v.overrides := by
  have hurl := Given.or_ite (h .databaseUrl (by decide))
  have hconnections := Given.or_ite (h .maxConnections (by decide))
  have hlevel := Given.or_ite (h .logLevel (by decide))
  have hjson := Given.or_ite (h .logJson (by decide))
  have hcache := Given.or_ite (h .cacheEnabled (by decide))
  have htimeout := Given.or_ite (h .backgroundTimeout (by decide))
  simp only [Given.overrides, Given.only, hurl, hconnections, hlevel, hjson, hcache, htimeout]
  rfl

theorem configFile_given {fs fs' : List Flag}
    (h : v.given.has .configFile = true → .configFile ∈ fs ∨ .configFile ∈ fs') :
    ((v.given.only fs').configFile <|> (v.given.only fs).configFile) = v.configFile :=
  Given.or_ite h

/-! ### Whole lines -/

namespace Written

/-- Every option that is written is known where it stands. -/
theorem known (h : v.Written before after) :
    ∀ o ∈ after, o.1 ∈ Flag.globals ++ v.command.verb.flags :=
  fun o ho => mem_of_has (Given.has_of_writes (h.writes o (List.mem_append_right _ ho)))

/-- Any of the options that are written are taken up as the values that they are written for. -/
theorem takeAll_eq (h : v.Written before after) (hpath : v.configFile ≠ some "")
    (hids : v.given.ids ≠ some []) (hos : os.Sublist (before ++ after)) :
    Given.takeAll {} os = .ok (v.given.only (os.map Prod.fst)) :=
  Given.takeAll_empty hpath hids (h.nodup.sublist (hos.map _)) fun o ho =>
    h.writes o (hos.subset ho)

theorem parse_eq (h : v.Written before after) (hpath : v.configFile ≠ some "")
    (hids : v.given.ids ≠ some []) :
    parse (line v.command.verb before after) none = .ok v := by
  have hmem (f : Flag) (hf : v.given.has f = true) :
      f ∈ before.map Prod.fst ∨ f ∈ after.map Prod.fst := by
    have := h.complete f hf
    rwa [List.map_append, List.mem_append] at this
  have hown : ∀ f ∈ v.command.verb.flags, v.given.has f = true → f ∈ after.map Prod.fst := by
    intro f hverb hf
    refine (hmem f hf).resolve_left fun hbefore => ?_
    obtain ⟨o, ho, rfl⟩ := List.mem_map.mp hbefore
    exact Verb.notMem_globals v.command.verb _ hverb (h.isGlobal o ho)
  rw [parse_line h.isGlobal h.known,
    bind_of_eq_ok (h.takeAll_eq hpath hids (List.sublist_append_left _ _)),
    bind_of_eq_ok (h.takeAll_eq hpath hids (List.sublist_append_right _ _)), command?_given hown,
    overrides_given fun f _ => hmem f, configFile_given (hmem .configFile)]
  rfl

/-- A line that lacks an option that the command needs is refused, whatever else it lacks. -/
theorem parse_of_missing (h : v.Written before after) (hpath : v.configFile ≠ some "")
    (hids : v.given.ids ≠ some []) {before' after' : List (Flag × String)}
    (hbefore : before'.Sublist before) (hafter : after'.Sublist after)
    (hf : f ∈ v.command.verb.required) (hlost : f ∉ after'.map Prod.fst) :
    parse (line v.command.verb before' after') none = .error .missingArgument := by
  rw [parse_line (fun o ho => h.isGlobal o (hbefore.subset ho))
      (fun o ho => h.known o (hafter.subset ho)),
    bind_of_eq_ok (h.takeAll_eq hpath hids (hbefore.trans (List.sublist_append_left _ _))),
    bind_of_eq_ok (h.takeAll_eq hpath hids (hafter.trans (List.sublist_append_right _ _))),
    Given.command?_only_eq_none hf hlost]
  rfl

/-- A line with a number out of range for an id is refused. -/
theorem parse_of_strays {l₁ l₂ : List (Flag × String)} {text stray : String}
    (h : v.Written before (l₁ ++ (f, text) :: l₂)) (hpath : v.configFile ≠ some "")
    (hids : v.given.ids ≠ some []) (hstray : f.Strays stray) :
    parse (line v.command.verb before (l₁ ++ (f, stray) :: l₂)) none = .error .malformedValue := by
  have hknown : ∀ o ∈ l₁ ++ (f, stray) :: l₂, o.1 ∈ Flag.globals ++ v.command.verb.flags := by
    intro o ho
    rcases List.mem_append.mp ho with ho | ho
    · exact h.known o (List.mem_append_left _ ho)
    rcases List.mem_cons.mp ho with rfl | ho
    · exact h.known (f, text) (by simp)
    · exact h.known o (by simp [ho])
  have hnew : f ∉ l₁.map Prod.fst := by
    have hnodup := h.nodup
    rw [List.map_append, List.map_append, List.nodup_append, List.nodup_append] at hnodup
    intro hmem
    exact hnodup.2.1.2.2 f hmem f List.mem_cons_self rfl
  have hfirst : l₁.Sublist (before ++ (l₁ ++ (f, text) :: l₂)) :=
    (List.sublist_append_left _ _).trans (List.sublist_append_right _ _)
  rw [parse_line h.isGlobal hknown,
    bind_of_eq_ok (h.takeAll_eq hpath hids (List.sublist_append_left _ _)), Given.takeAll_append,
    bind_of_eq_ok (h.takeAll_eq hpath hids hfirst),
    Given.takeAll_cons, Given.take_of_strays (Given.has_only_of_notMem hnew) hstray]
  rfl

end Written

/-- **Command lines round-trip.** Let an invocation be written down as a line, with each option that
has a value once, those of the command after its name and the others on either side, in any order.
If the path of the file with settings is not empty, nor the list of ids, then the line is read as
that invocation. The line is refused if an option that the command needs is left out, whatever else
is left out with it, and also if one of its ids is out of range. -/
theorem line_round_trip (hpath : v.configFile ≠ some "") (hids : v.given.ids ≠ some [])
    (h : v.Written before after) :
    parse (line v.command.verb before after) none = .ok v ∧
    (∀ before' after' : List (Flag × String), before'.Sublist before → after'.Sublist after →
      (∃ f ∈ v.command.verb.required, f ∉ after'.map Prod.fst) →
      parse (line v.command.verb before' after') none = .error .missingArgument) ∧
    (∀ l₁ l₂ f text stray, after = l₁ ++ (f, text) :: l₂ → f.Strays stray →
      parse (line v.command.verb before (l₁ ++ (f, stray) :: l₂)) none
        = .error .malformedValue) := by
  refine ⟨h.parse_eq hpath hids, ?_, ?_⟩
  · rintro before' after' hbefore hafter ⟨f, hf, hlost⟩
    exact h.parse_of_missing hpath hids hbefore hafter hf hlost
  · rintro l₁ l₂ f text stray rfl hstray
    exact h.parse_of_strays hpath hids hstray

/-- A kind that looks like options, ids at both ends of the range, and options on both sides. -/
def crowded : Invocation where
  command := .stats "--ids=1,2" [-9223372036854775808, 0, 9223372036854775807]
  configFile := some "a=b"
  overrides := { logJson := some true, cacheEnabled := some false, backgroundTimeout := some 250 }

theorem written_crowded : crowded.Written [(.logJson, "YeS"), (.configFile, "a=b")]
    [(.ids, "-9223372036854775808,0,9223372036854775807"), (.cacheEnabled, "oFF"),
      (.kind, "--ids=1,2"), (.backgroundTimeout, "250")] where
  isGlobal := by decide
  nodup := by decide
  complete := by
    intro f hf
    cases f <;> first | decide | cases hf
  writes := by
    have hyes : SpellsBool true "YeS" := ⟨"yes", by decide, by simp [Recased]⟩
    have hoff : SpellsBool false "oFF" := ⟨"off", by decide, by simp [Recased]⟩
    simp only [List.cons_append, List.nil_append, List.forall_mem_cons]
    refine ⟨⟨true, rfl, hyes⟩, rfl, ⟨_, rfl, ?_⟩, ⟨false, rfl, hoff⟩, rfl, ⟨250, rfl, ?_⟩,
      fun _ ho => absurd ho List.not_mem_nil⟩
    · decide +kernel
    · decide +kernel

/-- All of it is read, without its kind nothing is, and one more id would be one too many. -/
theorem line_round_trip_crowded :
    parse ["--log-json=YeS", "--config-file=a=b", "stats",
        "--ids=-9223372036854775808,0,9223372036854775807", "--cache-enabled=oFF",
        "--biz=--ids=1,2", "--background-timeout-ms=250"] none = .ok crowded ∧
    parse ["--log-json=YeS", "stats", "--ids=-9223372036854775808,0,9223372036854775807",
        "--cache-enabled=oFF"] none = .error .missingArgument ∧
    parse ["--log-json=YeS", "--config-file=a=b", "stats", "--ids=0,9223372036854775808",
        "--cache-enabled=oFF", "--biz=--ids=1,2", "--background-timeout-ms=250"] none
      = .error .malformedValue := by
  obtain ⟨hread, hmissing, hstray⟩ := line_round_trip (by decide) (by decide) written_crowded
  refine ⟨?_, ?_, ?_⟩
  · exact hread
  · exact hmissing [(.logJson, "YeS")]
      [(.ids, "-9223372036854775808,0,9223372036854775807"), (.cacheEnabled, "oFF")]
      (by decide) (by decide) ⟨.kind, by decide, by decide⟩
  · exact hstray [] _ .ids _ "0,9223372036854775808" rfl
      ⟨[0, 9223372036854775808], ⟨9223372036854775808, by decide, .inr (by decide)⟩,
        by decide +kernel⟩

end Invocation

end Popularity
