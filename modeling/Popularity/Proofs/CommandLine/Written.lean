import Popularity.CommandLine.Parser
import Popularity.Proofs.Decimal
import Mathlib.Data.List.Forall2

/-!
# Command lines as they are written

There are many ways to write one command line. Options may be in any order, those that go with every
command may stand on either side of the command's name, and a truth value has several names, which
may be in any case. What all these have in common is said here: each option that has a value stands
there once, with a text that stands for its value, and nothing else does.

Numbers are written in decimal. An id is a 64-bit number, and there is a text for every other number
as well, which then is no id.

## Main definitions

* `Invocation.given` — the values of all options
* `Given.Writes` — the texts that stand for the value of an option
* `Flag.Strays` — the texts of numbers that are no ids
* `Invocation.line`, `Invocation.Written`

## Main results

* `Given.readWord?_text`, `Given.readBool?_of_spellsBool`, `Given.readWords?_commas` — values are
  read as they are written
* `Given.readWord?_of_outside`, `Given.readWords?_of_outside`
-/

namespace Popularity

/-! ### The values of options -/

namespace Command

/-- The name of a command. -/
def verb : Command → Verb
  | .migrate => .migrate
  | .showItem .. => .showItem
  | .read .. => .read
  | .like .. => .like
  | .unlike .. => .unlike
  | .collect .. => .collect
  | .uncollect .. => .uncollect
  | .stats .. => .stats

/-- The values of the options of a command. -/
def given : Command → Given
  | .migrate => {}
  | .showItem i user => { kind := i.kind, id := i.id, user }
  | .read i => { kind := i.kind, id := i.id }
  | .like i user | .unlike i user => { kind := i.kind, id := i.id, user }
  | .collect i user folder | .uncollect i user folder =>
    { kind := i.kind, id := i.id, user, folder }
  | .stats kind ids => { kind, ids }

end Command

/-- The options that a command cannot do without. An item may be shown to nobody in particular. -/
def Verb.required : Verb → List Flag
  | .showItem => [.kind, .id]
  | verb => verb.flags

/-- The values of all options, which those of the command are among. -/
def Invocation.given (v : Invocation) : Given :=
  { v.command.given with
    configFile := v.configFile
    databaseUrl := v.overrides.databaseUrl
    maxConnections := v.overrides.maxConnections
    logLevel := v.overrides.logLevel
    logJson := v.overrides.logJson
    cacheEnabled := v.overrides.cacheEnabled
    backgroundTimeout := v.overrides.backgroundTimeout }

/-! ### Their texts -/

/-- Whether a text is a word of which any letters may have been put into upper case. -/
def Recased (word text : String) : Prop :=
  List.Forall₂ (fun c d => d = c ∨ d = c.toUpper) word.toList text.toList

/-- Whether a text is one of the words for a truth value, in any case. -/
def SpellsBool (b : Bool) (text : String) : Prop :=
  ∃ word ∈ if b then Given.yes else Given.no, Recased word text

/-- Numbers in decimal with commas between them. -/
def commas (ns : List Int) : String := ",".intercalate (ns.map Decimal.text)

/-- Whether a text stands for the value of an option. None does if the option has no value. -/
def Given.Writes (g : Given) : Flag → String → Prop
  | .configFile, text => g.configFile = some text
  | .databaseUrl, text => g.databaseUrl = some text
  | .maxConnections, text => ∃ n, g.maxConnections = some n ∧ text = Decimal.text n.toNat
  | .logLevel, text => g.logLevel = some text
  | .logJson, text => ∃ b, g.logJson = some b ∧ SpellsBool b text
  | .cacheEnabled, text => ∃ b, g.cacheEnabled = some b ∧ SpellsBool b text
  | .backgroundTimeout, text => ∃ n, g.backgroundTimeout = some n ∧ text = Decimal.text n.toNat
  | .kind, text => g.kind = some text
  | .id, text => ∃ n, g.id = some n ∧ text = Decimal.text n.toInt
  | .user, text => ∃ n, g.user = some n ∧ text = Decimal.text n.toInt
  | .folder, text => ∃ n, g.folder = some n ∧ text = Decimal.text n.toInt
  | .ids, text => ∃ ns, g.ids = some ns ∧ text = commas (ns.map Int64.toInt)

/-- Whether an option takes an id and a text is a number that is none; of several ids one is
enough. -/
def Flag.Strays : Flag → String → Prop
  | .id, text | .user, text | .folder, text => ∃ n, Word.IsOutside n ∧ text = Decimal.text n
  | .ids, text => ∃ ns : List Int, (∃ n ∈ ns, Word.IsOutside n) ∧ text = commas ns
  | _, _ => False

/-! ### Lines -/

/-- An option and its value in one argument. -/
def Flag.assign (f : Flag) (value : String) : String := "--" ++ f.long ++ "=" ++ value

namespace Invocation

/-- The arguments of a command line: options, the name of the command, and options. -/
def line (verb : Verb) (before after : List (Flag × String)) : List String :=
  before.map (fun o => o.1.assign o.2) ++ verb.word :: after.map fun o => o.1.assign o.2

/-- Whether options are those of a command line, before and after the command's name. -/
structure Written (v : Invocation) (before after : List (Flag × String)) : Prop where
  /-- Those of the command alone come after its name. -/
  isGlobal : ∀ o ∈ before, o.1 ∈ Flag.globals
  /-- Each stands there once. -/
  nodup : ((before ++ after).map Prod.fst).Nodup
  /-- None that has a value is left out. -/
  complete : ∀ f, v.given.has f = true → f ∈ (before ++ after).map Prod.fst
  /-- Each has a text for its value. -/
  writes : ∀ o ∈ before ++ after, v.given.Writes o.1 o.2

end Invocation

/-! ### Reading what is written -/

section

variable {α β : Type} {f : α → Option β}

theorem mapM_map_of_forall {g : β → α} (h : ∀ b, f (g b) = some b) (bs : List β) :
    (bs.map g).mapM f = some bs := by
  induction bs with
  | nil => rfl
  | cons b bs ih =>
    rw [List.map_cons, List.mapM_cons, h, ih]
    rfl

theorem mapM_eq_none {a : α} {as : List α} (ha : a ∈ as) (h : f a = none) : as.mapM f = none := by
  induction as with
  | nil => cases ha
  | cons b as ih =>
    rw [List.mapM_cons]
    rcases List.mem_cons.mp ha with rfl | ha
    · rw [h]
      rfl
    · rw [ih ha]
      cases f b <;> rfl

end

theorem splitOn_commas {ns : List Int} (hns : ns ≠ []) :
    (commas ns).toList.splitOn ',' = ns.map Decimal.ofInt := by
  have hcomma : ∀ cs ∈ ns.map Decimal.ofInt, ',' ∉ cs := by
    intro cs hcs
    obtain ⟨n, -, rfl⟩ := List.mem_map.mp hcs
    exact Decimal.notMem_ofInt (by decide) (by decide) n
  have htexts : (ns.map Decimal.text).map String.toList = ns.map Decimal.ofInt := by
    rw [List.map_map]
    exact List.map_congr_left fun n _ => String.toList_ofList
  rw [commas, String.toList_intercalate, htexts]
  exact List.splitOn_intercalate ',' hcomma (by simpa using hns)

/-- Letters that have been put into upper case are put back. -/
theorem toLower_of_recased {word text : String} (hword : word ∈ Given.yes ++ Given.no)
    (h : Recased word text) : text.toLower = word := by
  have hall : (Given.yes ++ Given.no).all (fun word => word.toList.all fun c =>
      c.toLower = c ∧ c.toUpper.toLower = c) = true := by decide +kernel
  have hletters : ∀ c ∈ word.toList, c.toLower = c ∧ c.toUpper.toLower = c := fun c hc =>
    of_decide_eq_true (List.all_eq_true.mp (List.all_eq_true.mp hall word hword) c hc)
  apply String.toList_injective
  have hlower : text.toLower.toList = text.toList.map Char.toLower := String.toList_map
  rw [hlower]
  rw [Recased] at h
  generalize word.toList = cs at h hletters
  generalize text.toList = ds at h
  induction h with
  | nil => rfl
  | @cons c d cs ds hd _ ih =>
    rw [List.map_cons, ih fun c hc => hletters c (List.mem_cons_of_mem _ hc)]
    obtain ⟨hlower, hupper⟩ := hletters c List.mem_cons_self
    rcases hd with rfl | rfl
    · rw [hlower]
    · rw [hupper]

namespace Given

theorem readWord?_text (n : Int64) : readWord? (Decimal.text n.toInt) = some n := by
  rw [readWord?, Decimal.text, String.toList_ofList, Decimal.readSigned?_ofInt, Option.bind_some,
    Word.ofInt?_toInt]

theorem readCount?_text (n : UInt32) : readCount? (Decimal.text n.toNat) = some n := by
  have hn : (0 : Int) ≤ n.toNat ∧ (n.toNat : Int) < Word.size32 :=
    ⟨Int.natCast_nonneg _, Int.ofNat_lt.mpr n.toNat_lt⟩
  rw [readCount?, Decimal.text, String.toList_ofList, Decimal.readSigned?_ofInt, Option.bind_some,
    if_pos hn, Int.toNat_natCast, UInt32.ofNat_toNat]

theorem readTime?_text (n : UInt64) : readTime? (Decimal.text n.toNat) = some n := by
  have hdigits : Decimal.ofInt n.toNat = Decimal.digits n.toNat := rfl
  have hn : n.toNat < Word.size64 := n.toNat_lt
  rw [readTime?, Decimal.text, String.toList_ofList, hdigits, Decimal.readUnsigned?_digits,
    Option.bind_some, if_pos hn, UInt64.ofNat_toNat]

theorem readBool?_of_spellsBool {b : Bool} {text : String} (h : SpellsBool b text) :
    readBool? text = some b := by
  obtain ⟨word, hword, hrecased⟩ := h
  have hno : ∀ word ∈ no, yes.contains word = false := by decide
  cases b with
  | true =>
    have hword : word ∈ yes := hword
    rw [readBool?, toLower_of_recased (List.mem_append_left _ hword) hrecased,
      if_pos (List.contains_iff_mem.mpr hword)]
  | false =>
    have hword : word ∈ no := hword
    rw [readBool?, toLower_of_recased (List.mem_append_right _ hword) hrecased, hno word hword,
      if_neg Bool.false_ne_true, if_pos (List.contains_iff_mem.mpr hword)]

theorem readWords?_commas {ns : List Int64} (hns : ns ≠ []) :
    readWords? (commas (ns.map Int64.toInt)) = some ns := by
  rw [readWords?, splitOn_commas (by simpa using hns), List.map_map]
  exact mapM_map_of_forall (f := fun cs => readWord? (String.ofList cs)) readWord?_text ns

/-- A number out of range is no id. -/
theorem readWord?_of_outside {n : Int} (hn : Word.IsOutside n) :
    readWord? (Decimal.text n) = none := by
  rw [readWord?, Decimal.text, String.toList_ofList, Decimal.readSigned?_ofInt, Option.bind_some,
    Word.ofInt?_eq_none_iff.mpr hn]

theorem readWords?_of_outside {ns : List Int} (h : ∃ n ∈ ns, Word.IsOutside n) :
    readWords? (commas ns) = none := by
  obtain ⟨n, hmem, hn⟩ := h
  rw [readWords?, splitOn_commas (List.ne_nil_of_mem hmem)]
  exact mapM_eq_none (List.mem_map_of_mem hmem) (readWord?_of_outside hn)

end Given

end Popularity
