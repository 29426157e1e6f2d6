import Popularity.Proofs.Except
import Popularity.Settings.Source

/-!
# What settings can be

A count in a source of settings is a word without a sign, however it is written, and so is a time
limit on the command line. So no setting that is accepted is too large to be told, and one that has
to be positive is.

Five of the eight settings have to stand a check. Whether a setting stands it depends on its own
value only, and the first that does not, in the order of the checks, is the one that is told.

## Main definitions

* `Setting`, with `Setting.Value` and `Setting.fits`
* `Setting.unfit?` — the first setting that does not stand its check
* `Settings.of` — the settings for values that do

## Main results

* `Tree.lt_of_asCount?`
* `Draft.settle_of`
* `Surroundings.exists_draft_of_load`, `Surroundings.timeout_of_load`
-/

namespace Popularity

theorem Binary64.toCount_lt (x : Binary64) : x.toCount < Word.size64 := by
  have hmin (n : Nat) : min n (Word.size64 - 1) < Word.size64 :=
    Nat.lt_of_le_of_lt (Nat.min_le_right _ _) (by decide)
  unfold toCount
  split
  · decide
  · decide
  · decide
  · decide
  · exact hmin _

/-- **A count is a word** without a sign. -/
theorem Tree.lt_of_asCount? {t : Tree} {n : Nat} (h : t.asCount? = some n) : n < Word.size64 := by
  unfold asCount? at h
  split at h
  next b => cases h; cases b <;> decide
  next m =>
    split at h
    next hm =>
      cases h
      have hsize := hm.2
      omega
    next => cases h
  next x => cases h; exact x.toCount_lt
  next s =>
    split at h
    · cases h; decide
    split at h
    · cases h; decide
    · exact of_decide_eq_true (Option.filter_eq_some_iff.mp h).2
  next => cases h

theorem Tree.lt_of_asSmallCount? {t : Tree} {n : Nat} (h : t.asSmallCount? = some n) :
    n < Word.size32 :=
  of_decide_eq_true (Option.filter_eq_some_iff.mp h).2

/-! ### The settings -/

/-- What can be set. -/
inductive Setting where
  | level
  | json
  | url
  | maxConnections
  | cacheEnabled
  | lifetime
  | capacity
  | timeout
  deriving DecidableEq, Repr

namespace Setting

/-- What a setting is set to. -/
abbrev Value : Setting → Type
  | .level | .url => String
  | .json | .cacheEnabled => Bool
  | .maxConnections | .lifetime | .capacity | .timeout => Nat

/-- The section that a setting is in. -/
def group : Setting → String
  | .level | .json => "logging"
  | .url | .maxConnections => "database"
  | .cacheEnabled | .lifetime | .capacity => "cache"
  | .timeout => "background"

/-- The name of a setting in its section. -/
def key : Setting → String
  | .level => "level"
  | .json => "json"
  | .url => "url"
  | .maxConnections => "max_connections"
  | .cacheEnabled => "enabled"
  | .lifetime => "ttl_seconds"
  | .capacity => "capacity"
  | .timeout => "timeout_ms"

/-- The whole name of a setting. -/
def name (x : Setting) : String := x.group ++ "." ++ x.key

/-! ### Checks -/

/-- Whether a setting stands its check, given what it is set to, if it is set at all. -/
def fits : (x : Setting) → Option x.Value → Bool
  | .level, v => v.all fun s => (Threshold.read? s).isSome
  | .maxConnections, v => 1 ≤ v.getD 8
  | .lifetime, v => 1 ≤ v.getD 900 && v.getD 900 < Word.size32
  | .capacity, v => 1 ≤ v.getD 10000
  | .timeout, v => 1 ≤ v.getD 3000
  | .json, _ | .url, _ | .cacheEnabled, _ => true

/-- What is told of a setting that does not stand its check. -/
def complaint : (x : Setting) → Option x.Value → String
  | .level, _ => "failed to parse: " ++ Threshold.misnamed
  | .lifetime, v =>
    if v.getD 900 = 0 then "must be greater than zero" else "value exceeds supported range for u32"
  | .capacity, _ => "must be greater than zero and fit in usize"
  | _, _ => "must be greater than zero"

/-- The settings with a check, in the order of the checks. -/
def checked : List Setting := [.level, .maxConnections, .lifetime, .capacity, .timeout]

/-- The first setting that does not stand its check. -/
def unfit? (value : (x : Setting) → Option x.Value) : Option Setting :=
  checked.find? fun x => !x.fits (value x)

theorem unfit?_eq_none_iff {value : (x : Setting) → Option x.Value} :
    unfit? value = none ↔ ∀ x : Setting, x.fits (value x) = true := by
  rw [unfit?, List.find?_eq_none]
  constructor
  · intro h x
    have hx (hmem : x ∈ checked) : x.fits (value x) = true := by simpa using h x hmem
    cases x with
    | json | url | cacheEnabled => rfl
    | level | maxConnections | lifetime | capacity | timeout => exact hx (by decide)
  · intro h x _
    simp [h x]

end Setting

/-- The settings for what they are set to, with the standard values of those that are not set. -/
def Settings.of (value : (x : Setting) → Option x.Value) : Settings where
  threshold := ((value .level).bind Threshold.read?).getD ⟨some .info⟩
  format := if (value .json).getD false then .json else .compact
  url := (value .url).bind Draft.nonblank
  maxConnections := (value .maxConnections).getD 8
  cacheEnabled := (value .cacheEnabled).getD true
  lifetime := (value .lifetime).getD 900
  capacity := (value .capacity).getD 10000
  timeout := (value .timeout).getD 3000

namespace Draft

/-- What a draft sets a setting to. -/
def get (d : Draft) : (x : Setting) → Option x.Value
  | .level => d.level
  | .json => d.json
  | .url => d.url
  | .maxConnections => d.maxConnections
  | .cacheEnabled => d.cacheEnabled
  | .lifetime => d.lifetime
  | .capacity => d.capacity
  | .timeout => d.timeout

/-- The draft that sets each setting to a value or leaves it. -/
def of (value : (x : Setting) → Option x.Value) : Draft where
  level := value .level
  json := value .json
  url := value .url
  maxConnections := value .maxConnections
  cacheEnabled := value .cacheEnabled
  lifetime := value .lifetime
  capacity := value .capacity
  timeout := value .timeout

theorem of_get (d : Draft) : of d.get = d := rfl

/-! ### Checking a draft -/

theorem threshold_eq (v : Option String) :
    threshold v = if Setting.fits .level v then .ok ((v.bind Threshold.read?).getD ⟨some .info⟩)
      else .error (.invalid Setting.level.name (Setting.complaint .level v)) := by
  cases v with
  | none => rfl
  | some s =>
    rw [threshold, Setting.fits, Option.all_some, Option.bind_some]
    split
    next t ht => rw [ht]; rfl
    next ht => rw [ht]; rfl

theorem positive_eq (key reason : String) (n : Nat) :
    positive key reason n = if decide (1 ≤ n) then .ok n else .error (.invalid key reason) := by
  cases n <;> rfl

theorem positive32_eq (key : String) (n : Nat) :
    positive32 key n = if decide (1 ≤ n) && decide (n < Word.size32) then .ok n
      else .error (.invalid key (if n = 0 then "must be greater than zero"
        else "value exceeds supported range for u32")) := by
  cases n with
  | zero => rfl
  | succ n =>
    rw [positive32, if_neg (Nat.succ_ne_zero n)]
    by_cases hlarge : Word.size32 ≤ n + 1
    · rw [if_pos hlarge, decide_eq_false (Nat.not_lt.mpr hlarge), Bool.and_false]
      rfl
    · rw [if_neg hlarge, decide_eq_true (Nat.lt_of_not_le hlarge)]
      rfl

theorem connections_eq {v : Option Nat} (h : ∀ n, v = some n → n < Word.size32) :
    positive32 "database.max_connections" (v.getD 8)
      = if Setting.fits .maxConnections v then .ok (v.getD 8)
        else .error
          (.invalid Setting.maxConnections.name (Setting.complaint .maxConnections v)) := by
  have hsmall : v.getD 8 < Word.size32 := by
    cases v with
    | none => decide
    | some n => exact h n rfl
  rw [positive32, if_neg (Nat.not_le.mpr hsmall)]
  exact positive_eq _ _ _

theorem lifetime_eq (v : Option Nat) :
    positive32 "cache.ttl_seconds" (v.getD 900)
      = if Setting.fits .lifetime v then .ok (v.getD 900)
        else .error (.invalid Setting.lifetime.name (Setting.complaint .lifetime v)) :=
  positive32_eq _ _

theorem capacity_eq (v : Option Nat) :
    positive "cache.capacity" "must be greater than zero and fit in usize" (v.getD 10000)
      = if Setting.fits .capacity v then .ok (v.getD 10000)
        else .error (.invalid Setting.capacity.name (Setting.complaint .capacity v)) :=
  positive_eq _ _ _

theorem timeout_eq (v : Option Nat) :
    positive "background.timeout_ms" "must be greater than zero" (v.getD 3000)
      = if Setting.fits .timeout v then .ok (v.getD 3000)
        else .error (.invalid Setting.timeout.name (Setting.complaint .timeout v)) :=
  positive_eq _ _ _

/-- **A draft is settled** if all settings stand their checks. If not, the first that does not is
told. -/
theorem settle_of {value : (x : Setting) → Option x.Value}
    (h : ∀ n, value .maxConnections = some n → n < Word.size32) :
    (of value).settle = match Setting.unfit? value with
      | none => .ok (Settings.of value)
      | some x => .error (.invalid x.name (x.complaint (value x))) := by
  rw [settle, of, threshold_eq, connections_eq h, lifetime_eq, capacity_eq, timeout_eq,
    Setting.unfit?, Setting.checked]
  simp only [List.find?_cons]
  cases Setting.fits .level (value .level) with
  | false => rfl
  | true =>
    cases Setting.fits .maxConnections (value .maxConnections) with
    | false => rfl
    | true =>
      cases Setting.fits .lifetime (value .lifetime) with
      | false => rfl
      | true =>
        cases Setting.fits .capacity (value .capacity) with
        | false => rfl
        | true => cases Setting.fits .timeout (value .timeout) <;> rfl

/-! ### Drafts from trees -/

theorem exists_of_wanted {α : Type} {as? : Tree → Option α} {t : Option Tree} {a : α}
    (h : wanted as? t = .ok (some a)) : ∃ t', as? t' = some a := by
  unfold wanted at h
  split at h
  · cases h
  · cases h
  next t' _ _ =>
    split at h
    next ha => cases h; exact ⟨_, ha⟩
    next => cases h

/-- The numbers in a source of settings are words, and the number of connections is a short one. -/
theorem lt_of_ofTree {t : Tree} {d : Draft} (h : ofTree t = .ok d) :
    (∀ n, d.maxConnections = some n → n < Word.size32) ∧
      ∀ n, d.timeout = some n → n < Word.size64 := by
  obtain ⟨logging, -, h⟩ := exists_of_bind_eq_ok h
  obtain ⟨level, -, h⟩ := exists_of_bind_eq_ok h
  obtain ⟨json, -, h⟩ := exists_of_bind_eq_ok h
  obtain ⟨database, -, h⟩ := exists_of_bind_eq_ok h
  obtain ⟨url, -, h⟩ := exists_of_bind_eq_ok h
  obtain ⟨maxConnections, hconnections, h⟩ := exists_of_bind_eq_ok h
  obtain ⟨cache, -, h⟩ := exists_of_bind_eq_ok h
  obtain ⟨cacheEnabled, -, h⟩ := exists_of_bind_eq_ok h
  obtain ⟨lifetime, -, h⟩ := exists_of_bind_eq_ok h
  obtain ⟨capacity, -, h⟩ := exists_of_bind_eq_ok h
  obtain ⟨background, -, h⟩ := exists_of_bind_eq_ok h
  obtain ⟨timeout, htimeout, h⟩ := exists_of_bind_eq_ok h
  cases h
  constructor
  · rintro n rfl
    obtain ⟨t, ht⟩ := exists_of_wanted hconnections
    exact t.lt_of_asSmallCount? ht
  · rintro n rfl
    obtain ⟨t, ht⟩ := exists_of_wanted htimeout
    exact t.lt_of_asCount? ht

/-- The command line gives no number that is too large. -/
theorem lt_of_override {d : Draft} {o : Overrides}
    (h : (∀ n, d.maxConnections = some n → n < Word.size32) ∧
      ∀ n, d.timeout = some n → n < Word.size64) :
    (∀ n, (d.override o).maxConnections = some n → n < Word.size32) ∧
      ∀ n, (d.override o).timeout = some n → n < Word.size64 := by
  constructor
  · intro n hn
    rw [override] at hn
    cases ho : o.maxConnections with
    | some m => rw [ho] at hn; cases hn; exact m.toNat_lt
    | none => rw [ho] at hn; exact h.1 n hn
  · intro n hn
    rw [override] at hn
    cases ho : o.backgroundTimeout with
    | some m => rw [ho] at hn; cases hn; exact m.toNat_lt
    | none => rw [ho] at hn; exact h.2 n hn

end Draft

/-! ### Settings that are loaded -/

namespace Surroundings

variable {s : Surroundings} {i : Invocation} {settings : Settings}

theorem treeOf_eq {file : Option String} {standard own named : List (String × Tree)}
    (hstandard : s.optionalSource "config/default" = .ok standard)
    (hown : s.optionalSource "engagement" = .ok own)
    (hnamed : file.elim (.ok []) s.source = .ok named) :
    s.treeOf file
      = .ok ([standard, own, named, s.fromVariables].foldl Tree.layer (.table [])) := by
  rw [treeOf, hstandard, hown]
  cases file with
  | none => cases hnamed; rfl
  | some file =>
    have hsource : s.source file = .ok named := hnamed
    dsimp only
    rw [hsource]
    rfl

theorem load_eq {t : Tree} {d : Draft} (ht : s.treeOf i.configFile = .ok t)
    (hd : Draft.ofTree t = .ok d) : s.load i = (d.override i.overrides).settle := by
  have hdraft : (s.treeOf i.configFile >>= Draft.ofTree) = .ok d := by
    rw [ht]
    exact hd
  rw [load, hdraft]

/-- **Settings that are loaded** stand all checks. -/
theorem exists_draft_of_load (h : s.load i = .ok settings) :
    ∃ d : Draft, settings = Settings.of d.get ∧ (∀ x : Setting, x.fits (d.get x) = true) ∧
      ∀ n, d.timeout = some n → n < Word.size64 := by
  unfold load at h
  split at h
  next d hd =>
    obtain ⟨t, -, hd⟩ := exists_of_bind_eq_ok hd
    obtain ⟨hconnections, htimeout⟩ :=
      Draft.lt_of_override (o := i.overrides) (Draft.lt_of_ofTree hd)
    rw [← Draft.of_get (d.override i.overrides), Draft.settle_of hconnections] at h
    split at h
    next hfits =>
      cases h
      exact ⟨d.override i.overrides, rfl, Setting.unfit?_eq_none_iff.mp hfits, htimeout⟩
    next => cases h
  next => cases h

/-- **The time limit of background jobs** is a positive word without a sign, whatever it was taken
from. -/
theorem timeout_of_load (h : s.load i = .ok settings) :
    0 < settings.timeout ∧ settings.timeout < Word.size64 := by
  obtain ⟨d, rfl, hfits, htimeout⟩ := exists_draft_of_load h
  refine ⟨of_decide_eq_true (hfits .timeout), ?_⟩
  change d.timeout.getD 3000 < Word.size64
  cases hn : d.timeout with
  | some n => exact htimeout n hn
  | none => exact (by decide : 3000 < Word.size64)

/-- The lifetime of an entry is a positive number of 32 bits. -/
theorem lifetime_of_load (h : s.load i = .ok settings) :
    0 < settings.lifetime ∧ settings.lifetime < Word.size32 := by
  obtain ⟨d, rfl, hfits, -⟩ := exists_draft_of_load h
  obtain ⟨hpos, hsmall⟩ := Bool.and_eq_true_iff.mp (hfits .lifetime)
  exact ⟨of_decide_eq_true hpos, of_decide_eq_true hsmall⟩

/-- A cache may hold something. -/
theorem capacity_of_load (h : s.load i = .ok settings) : 0 < settings.capacity := by
  obtain ⟨d, rfl, hfits, -⟩ := exists_draft_of_load h
  exact of_decide_eq_true (hfits .capacity)

end Surroundings

end Popularity
