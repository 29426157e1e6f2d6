import Popularity.Proofs.Settings

/-!
# Layers of settings

Sources are laid over each other as trees: names are read as places, tables are joined, and what
stands in the way is replaced. None of this can be seen in the settings, as long as sections are
tables and values are of the sort that their setting takes. Then a source says something of a
setting or nothing, and what a setting is in the end is what the last source says that says
anything of it, whatever is said of other settings.

So to load settings is to take for each of the eight the value of the highest layer that has one,
and to check afterwards. A bad value under a good one does no harm, and a good one under a bad one
does not help. A source may also say that a setting is left blank, which hides what lower sources
say but gives no value.

## Main definitions

* `Setting.Takes` — the values that a setting can take
* `Tree.saysAt`, `Tree.said` — what a source says of a setting
* `Tree.Proper` — sources that say nothing out of place

## Main results

* `Tree.layers_of_proper` — layers do not mix
* `Draft.ofTree_eq` — what is read from a tree
* `Surroundings.load_layers`
-/

namespace Popularity

namespace Tree

variable {t v w : Tree} {name k : String} {ms : List (String × Tree)}

/-! ### Members -/

theorem lookup_cons_eq : ((name, v) :: ms).lookup k = if k = name then some v else ms.lookup k := by
  by_cases hk : k = name
  · rw [if_pos hk, hk, List.lookup_cons_self]
  · rw [if_neg hk, List.lookup_cons, beq_false_of_ne hk]

theorem lookup_putMember :
    (putMember ms name v).lookup k = if k = name then some v else ms.lookup k := by
  induction ms with
  | nil => exact lookup_cons_eq
  | cons m ms ih =>
    obtain ⟨n, w⟩ := m
    rw [putMember]
    split
    next hn =>
      subst hn
      rw [lookup_cons_eq, lookup_cons_eq]
      split <;> rfl
    next hn =>
      rw [lookup_cons_eq, lookup_cons_eq, ih]
      by_cases hk : k = n
      · rw [if_pos hk, if_pos hk, if_neg fun h => hn (hk.symm.trans h)]
      · rw [if_neg hk, if_neg hk]

theorem member?_put : (t.put name v).member? k = if k = name then some v else t.member? k :=
  lookup_putMember

/-- Whether a tree is a table. -/
def IsTable (t : Tree) : Prop := ∃ ms, t = .table ms

theorem isTable_put : (t.put name v).IsTable := ⟨_, rfl⟩

theorem overlay_of_not_isTable {old : Option Tree} (h : ¬ v.IsTable) : overlay old v = v := by
  cases v with
  | table ms => exact absurd ⟨ms, rfl⟩ h
  | blank | bool | int | float | text | list => rw [overlay]; exact fun ms => nofun

theorem isTable_overlayMembers (h : t.IsTable) (ms : List (String × Tree)) :
    (overlayMembers t ms).IsTable := by
  induction ms generalizing t with
  | nil => exact h
  | cons m ms ih =>
    exact ih isTable_put

/-- Of members that are no tables, the last of a name takes the place of what was there. -/
theorem member?_overlayMembers (h : ∀ m ∈ ms, m.1 = k → ¬ m.2.IsTable) :
    (overlayMembers t ms).member? k = (ms.reverse.lookup k).or (t.member? k) := by
  induction ms generalizing t with
  | nil => rfl
  | cons m ms ih =>
    obtain ⟨n, v⟩ := m
    rw [overlayMembers, ih fun m hm => h m (List.mem_cons_of_mem _ hm), List.reverse_cons,
      List.lookup_append, Option.or_assoc, member?_put]
    congr 1
    rw [lookup_cons_eq]
    by_cases hk : k = n
    · rw [if_pos hk, if_pos hk, overlay_of_not_isTable (h (n, v) List.mem_cons_self hk.symm)]
      rfl
    · rw [if_neg hk, if_neg hk]
      rfl

end Tree

/-! ### What a source says -/

namespace Setting

/-- The value of a setting in a tree, if it is of the sort that the setting needs. -/
def as? : (x : Setting) → Tree → Option x.Value
  | .level | .url => Tree.asText?
  | .json | .cacheEnabled => Tree.asBool?
  | .maxConnections => Tree.asSmallCount?
  | .lifetime | .capacity | .timeout => Tree.asCount?

/-- Whether a setting can take what a source says of it: a value of its sort, or a blank. -/
def Takes (x : Setting) (w : Tree) : Prop := w = .blank ∨ (x.as? w).isSome

theorem as?_blank (x : Setting) : x.as? .blank = none := by
  cases x <;> rfl

theorem as?_table (x : Setting) (ms : List (String × Tree)) : x.as? (.table ms) = none := by
  cases x <;> rfl

theorem Takes.not_isTable {x : Setting} {w : Tree} (h : x.Takes w) : ¬ w.IsTable := by
  rintro ⟨ms, rfl⟩
  rcases h with h | h
  · cases h
  · rw [as?_table] at h
    cases h

end Setting

/-- What the command line sets a setting to. -/
def Overrides.get (o : Overrides) : (x : Setting) → Option x.Value
  | .level => o.logLevel
  | .json => o.logJson
  | .url => o.databaseUrl
  | .maxConnections => o.maxConnections.map (·.toNat)
  | .cacheEnabled => o.cacheEnabled
  | .lifetime | .capacity => none
  | .timeout => o.backgroundTimeout.map (·.toNat)

namespace Tree

variable {t v w : Tree} {x : Setting} {ps : List Place}

/-- What a tree says of a setting. -/
def stated? (t : Tree) (x : Setting) : Option Tree := (t.member? x.group).bind (·.member? x.key)

/-- What a value for a place says of a setting: the place is a section, and the value a table with
the setting in it, or it is the place of the setting. -/
def saysAt (v : Tree) (x : Setting) : List Place → Option Tree
  | [.member g] => if g = x.group then v.members.reverse.lookup x.key else none
  | [.member g, .member k] => if g = x.group ∧ k = x.key then some v else none
  | _ => none

/-- Whether a value is in its place there: a section is a table of values that their settings can
take, and so are the values for the settings alone. Nothing is said of what is inside a setting, and
a section has no elements. Other places may have any values. -/
def ProperAt (v : Tree) : List Place → Prop
  | [.member g] =>
    ∀ x : Setting, x.group = g → ∃ ms, v = .table ms ∧ ∀ m ∈ ms, m.1 = x.key → x.Takes m.2
  | [.member g, .member k] => ∀ x : Setting, x.group = g → x.key = k → x.Takes v
  | .member g :: .member k :: _ :: _ => ∀ x : Setting, x.group = g → x.key ≠ k
  | .member g :: .element _ :: _ => ∀ x : Setting, x.group ≠ g
  | _ => False

/-- What a source says of a setting. If it says several things, the last one counts. -/
def said (source : List (String × Tree)) (x : Setting) : Option Tree :=
  source.reverse.findSome? fun m => saysAt m.2 x (Place.read m.1)

/-- Whether all that a source says is in its place. -/
def Proper (source : List (String × Tree)) : Prop := ∀ m ∈ source, ProperAt m.2 (Place.read m.1)

/-- What is in its place can be taken. -/
theorem ProperAt.takes (h : ProperAt v ps) (hw : saysAt v x ps = some w) : x.Takes w := by
  unfold saysAt at hw
  split at hw
  next g =>
    split at hw
    next hg =>
      obtain ⟨ms, rfl, hms⟩ := h x hg.symm
      obtain ⟨l₁, l₂, hl, -⟩ := List.lookup_eq_some_iff.mp hw
      have hmem : (x.key, w) ∈ ms := by
        rw [← List.mem_reverse, show ms.reverse = _ from hl]
        simp
      exact hms (x.key, w) hmem rfl
    next => cases hw
  next g k =>
    split at hw
    next hk => cases hw; exact h x hk.1.symm hk.2.symm
    next => cases hw
  next => cases hw

theorem Proper.takes {source : List (String × Tree)} (h : Proper source)
    (hw : said source x = some w) : x.Takes w := by
  obtain ⟨m, hm, hsays⟩ := List.exists_of_findSome?_eq_some hw
  exact (h m (List.mem_reverse.mp hm)).takes hsays

/-! ### Layers -/

/-- Whether the sections of a tree are tables. -/
def Tabled (t : Tree) : Prop := ∀ (x : Setting) w, t.member? x.group = some w → w.IsTable

theorem Tabled.put {g : String} (h : Tabled t) (hw : ∀ x : Setting, x.group = g → w.IsTable) :
    Tabled (t.put g w) := by
  intro x u hu
  rw [member?_put] at hu
  split at hu
  next hg => cases hu; exact hw x hg
  next => exact h x u hu

theorem stated?_put {g : String} :
    (t.put g w).stated? x = if x.group = g then w.member? x.key else t.stated? x := by
  rw [stated?, member?_put]
  split <;> rfl

theorem Tabled.isTable_orTable (h : Tabled t) (x : Setting) :
    (orTable (t.member? x.group)).IsTable := by
  cases hg : t.member? x.group with
  | none => exact ⟨[], rfl⟩
  | some w =>
    obtain ⟨ms, rfl⟩ := h x w hg
    exact ⟨ms, rfl⟩

theorem Tabled.member?_orTable (h : Tabled t) (x : Setting) :
    (orTable (t.member? x.group)).member? x.key = t.stated? x := by
  rw [stated?]
  cases hg : t.member? x.group with
  | none => rfl
  | some w =>
    obtain ⟨ms, rfl⟩ := h x w hg
    rfl

theorem member?_getD_blank (t : Tree) (x : Setting) :
    ((t.member? x.group).getD .blank).member? x.key = t.stated? x := by
  rw [stated?]
  cases t.member? x.group <;> rfl

/-- To set a place changes what its value says and nothing else. -/
theorem setAt_of_proper (ht : Tabled t) (h : ProperAt v ps) :
    Tabled (t.setAt v ps) ∧ ∀ x, (t.setAt v ps).stated? x = (saysAt v x ps).or (t.stated? x) := by
  match ps, h with
  | [.member g], h =>
    rw [setAt]
    constructor
    · refine ht.put fun x hx => ?_
      obtain ⟨ms, rfl, -⟩ := h x hx
      subst hx
      exact isTable_overlayMembers (ht.isTable_orTable x) ms
    · intro x
      rw [stated?_put, saysAt]
      by_cases hx : x.group = g
      · obtain ⟨ms, rfl, hms⟩ := h x hx
        subst hx
        rw [if_pos rfl, if_pos rfl, overlay,
          member?_overlayMembers fun m hm hk => (hms m hm hk).not_isTable, ht.member?_orTable x]
        rfl
      · rw [if_neg hx, if_neg (Ne.symm hx), Option.none_or]
  | [.member g, .member k], h =>
    refine ⟨ht.put fun x hx => isTable_put, fun x => ?_⟩
    rw [setAt, stated?_put, saysAt, setAt, member?_put]
    · by_cases hx : x.group = g
      · subst hx
        rw [if_pos rfl, member?_getD_blank]
        by_cases hk : x.key = k
        · subst hk
          rw [if_pos rfl, if_pos ⟨rfl, rfl⟩, overlay_of_not_isTable (h x rfl rfl).not_isTable]
          rfl
        · rw [if_neg hk, if_neg fun hand => hk hand.2.symm, Option.none_or]
      · rw [if_neg hx, if_neg fun hand => hx hand.1.symm, Option.none_or]
    · exact nofun
  | .member g :: .member k :: p :: ps, h =>
    refine ⟨ht.put fun x hx => isTable_put, fun x => ?_⟩
    rw [setAt, stated?_put, setAt, member?_put]
    · by_cases hx : x.group = g
      · subst hx
        rw [if_pos rfl, if_neg (h x rfl), member?_getD_blank]
        rfl
      · rw [if_neg hx]
        rfl
    · exact nofun
    · exact nofun
  | .member g :: .element n :: ps, h =>
    refine ⟨ht.put fun x hx => absurd hx (h x), fun x => ?_⟩
    rw [setAt, stated?_put, if_neg (h x)]
    · rfl
    · exact nofun

theorem layer_of_proper {source : List (String × Tree)} (ht : Tabled t) (h : Proper source) :
    Tabled (t.layer source) ∧
      ∀ x, (t.layer source).stated? x = (said source x).or (t.stated? x) := by
  induction source generalizing t with
  | nil => exact ⟨ht, fun x => rfl⟩
  | cons m source ih =>
    obtain ⟨htabled, hstated⟩ := setAt_of_proper ht (h m List.mem_cons_self)
    obtain ⟨htabled', hstated'⟩ := ih htabled fun m' hm' => h m' (List.mem_cons_of_mem m hm')
    refine ⟨htabled', fun x => ?_⟩
    refine (hstated' x).trans ?_
    rw [hstated, said, said, List.reverse_cons, List.findSome?_append, Option.or_assoc]
    simp

/-- **Layers do not mix.** What they say of a setting is what the highest of them says that says
anything of it. -/
theorem layers_of_proper {sources : List (List (String × Tree))} (ht : Tabled t)
    (h : ∀ source ∈ sources, Proper source) :
    Tabled (sources.foldl layer t) ∧ ∀ x, (sources.foldl layer t).stated? x
      = (sources.reverse.findSome? (said · x)).or (t.stated? x) := by
  induction sources generalizing t with
  | nil => exact ⟨ht, fun x => rfl⟩
  | cons source sources ih =>
    obtain ⟨htabled, hstated⟩ := layer_of_proper ht (h source List.mem_cons_self)
    obtain ⟨htabled', hstated'⟩ := ih htabled fun l hl => h l (List.mem_cons_of_mem source hl)
    refine ⟨htabled', fun x => ?_⟩
    refine (hstated' x).trans ?_
    rw [hstated, List.reverse_cons, List.findSome?_append, Option.or_assoc]
    simp

end Tree

/-! ### What is read from a tree -/

namespace Draft

theorem wanted_eq {x : Setting} {w? : Option Tree} (h : ∀ w, w? = some w → x.Takes w) :
    wanted x.as? w? = .ok (w?.bind x.as?) := by
  cases w? with
  | none => rfl
  | some w =>
    rcases h w rfl with rfl | hw
    · rw [wanted, Option.bind_some, Setting.as?_blank]
    · obtain ⟨a, ha⟩ := Option.isSome_iff_exists.mp hw
      have hblank : w ≠ .blank := by
        rintro rfl
        rw [Setting.as?_blank] at ha
        cases ha
      rw [wanted, Option.bind_some, ha]
      exact hblank

/-- A section is a table, in which are the settings that are stated. -/
theorem exists_sectionOf {t : Tree} (ht : t.Tabled) (x : Setting) :
    ∃ ms, sectionOf t x.group = .ok (.table ms) ∧
      ∀ y : Setting, y.group = x.group → ms.lookup y.key = t.stated? y := by
  rw [sectionOf]
  cases hg : t.member? x.group with
  | none => exact ⟨[], rfl, fun y hy => by rw [Tree.stated?, hy, hg]; rfl⟩
  | some w =>
    obtain ⟨ms, rfl⟩ := ht x w hg
    exact ⟨ms, rfl, fun y hy => by rw [Tree.stated?, hy, hg]; rfl⟩

/-- **The draft of a tree** sets each setting to what is stated of it. -/
theorem ofTree_eq {t : Tree} (ht : t.Tabled)
    (htakes : ∀ (x : Setting) w, t.stated? x = some w → x.Takes w) :
    ofTree t = .ok (of fun x => (t.stated? x).bind x.as?) := by
  obtain ⟨logging, hlogging, hlogged⟩ := exists_sectionOf ht .level
  obtain ⟨database, hdatabase, hstored⟩ := exists_sectionOf ht .url
  obtain ⟨cache, hcache, hcached⟩ := exists_sectionOf ht .cacheEnabled
  obtain ⟨background, hbackground, htimed⟩ := exists_sectionOf ht .timeout
  have hread (x : Setting) {ms : List (String × Tree)} (index : Nat)
      (hms : ms.lookup x.key = t.stated? x) :
      wanted x.as? (setting? (.table ms) x.key index) = .ok ((t.stated? x).bind x.as?) := by
    rw [show setting? (.table ms) x.key index = t.stated? x from hms]
    exact wanted_eq (htakes x)
  calc ofTree t
    _ = _ := bind_of_eq_ok hlogging
    _ = _ := bind_of_eq_ok (hread .level 0 (hlogged .level rfl))
    _ = _ := bind_of_eq_ok (hread .json 1 (hlogged .json rfl))
    _ = _ := bind_of_eq_ok hdatabase
    _ = _ := bind_of_eq_ok (hread .url 0 (hstored .url rfl))
    _ = _ := bind_of_eq_ok (hread .maxConnections 1 (hstored .maxConnections rfl))
    _ = _ := bind_of_eq_ok hcache
    _ = _ := bind_of_eq_ok (hread .cacheEnabled 0 (hcached .cacheEnabled rfl))
    _ = _ := bind_of_eq_ok (hread .lifetime 1 (hcached .lifetime rfl))
    _ = _ := bind_of_eq_ok (hread .capacity 2 (hcached .capacity rfl))
    _ = _ := bind_of_eq_ok hbackground
    _ = _ := bind_of_eq_ok (hread .timeout 0 (htimed .timeout rfl))

/-- A draft under the command line. -/
theorem override_of (value : (x : Setting) → Option x.Value) (o : Overrides) :
    (of value).override o = of fun x => (o.get x).or (value x) := by
  have hor {α : Type} (a b : Option α) : (a <|> b) = a.or b := by cases a <;> rfl
  simp only [override, of, hor, Overrides.get, Option.none_or]

end Draft

/-! ### Names -/

namespace Setting

theorem read_name (x : Setting) : Tree.Place.read x.name = [.member x.group, .member x.key] := by
  cases x <;> decide +kernel

/-- No two settings have the same place. -/
theorem eq_of_place {x y : Setting} (hgroup : y.group = x.group) (hkey : y.key = x.key) :
    y = x := by
  cases x <;> cases y <;>
    first | rfl | exact absurd hgroup (by decide) | exact absurd hkey (by decide)

/-- A value that a setting can take may be given to it by its name. -/
theorem properAt_name {x : Setting} {v : Tree} (h : x.Takes v) :
    v.ProperAt (Tree.Place.read x.name) := by
  rw [read_name]
  intro y hgroup hkey
  rwa [eq_of_place hgroup hkey]

/-- The variable of a setting may be written in any case. -/
theorem settingOf?_eq (x : Setting) {v : String} (text : String)
    (h : v.toLower = "engagement__" ++ x.group ++ "__" ++ x.key) :
    Surroundings.settingOf? (v, text) = some (x.name, .text text) := by
  have hopening : Surroundings.opening.isPrefixOf
      ("engagement__" ++ x.group ++ "__" ++ x.key).toList = true := by
    cases x <;> decide +kernel
  have hname : String.ofList (Surroundings.pointed
      (("engagement__" ++ x.group ++ "__" ++ x.key).toList.drop Surroundings.opening.length))
        = x.name := by
    cases x <;> decide +kernel
  rw [Surroundings.settingOf?]
  dsimp only
  rw [h, if_pos hopening, hname]

end Setting

/-! ### All layers -/

/-- What a setting is set to by the command line and by sources, the highest first. -/
def Setting.layered (o : Overrides) (sources : List (List (String × Tree))) (x : Setting) :
    Option x.Value :=
  (o.get x).or ((sources.findSome? (Tree.said · x)).bind x.as?)

namespace Setting

variable {o : Overrides} {sources : List (List (String × Tree))} {n : Nat}

theorem exists_of_layered {x : Setting} {a : x.Value} (h : layered o sources x = some a) :
    o.get x = some a ∨ ∃ w, x.as? w = some a := by
  rcases Option.or_eq_some_iff.mp h with hget | ⟨-, hsaid⟩
  · exact .inl hget
  · obtain ⟨w, -, hw⟩ := Option.bind_eq_some_iff.mp hsaid
    exact .inr ⟨w, hw⟩

theorem connections_lt_of_layered (h : layered o sources .maxConnections = some n) :
    n < Word.size32 := by
  rcases exists_of_layered h with hget | ⟨w, hw⟩
  · obtain ⟨m, -, rfl⟩ := Option.map_eq_some_iff.mp hget
    exact m.toNat_lt
  · exact Tree.lt_of_asSmallCount? hw

theorem capacity_lt_of_layered (h : layered o sources .capacity = some n) : n < Word.size64 := by
  rcases exists_of_layered h with hget | ⟨w, hw⟩
  · cases hget
  · exact Tree.lt_of_asCount? hw

end Setting

namespace Surroundings

variable {s : Surroundings} {i : Invocation} {standard own named : List (String × Tree)}

/-- The tree of all sources. -/
theorem exists_treeOf (hstandard : s.optionalSource "config/default" = .ok standard)
    (hown : s.optionalSource "engagement" = .ok own)
    (hnamed : i.configFile.elim (.ok []) s.source = .ok named)
    (hproper : ∀ source ∈ [s.fromVariables, named, own, standard], Tree.Proper source) :
    ∃ t, s.treeOf i.configFile = .ok t ∧ t.Tabled ∧ ∀ x, t.stated? x
      = [s.fromVariables, named, own, standard].findSome? (Tree.said · x) := by
  have hempty : Tree.Tabled (.table []) := by
    intro x w hw
    cases hw
  have hproper' : ∀ source ∈ [standard, own, named, s.fromVariables], Tree.Proper source := by
    intro source hsource
    exact hproper source (List.mem_reverse.mp hsource)
  obtain ⟨htabled, hstated⟩ := Tree.layers_of_proper hempty hproper'
  exact ⟨_, treeOf_eq hstandard hown hnamed, htabled, fun x => (hstated x).trans Option.or_none⟩

/-- All sources together leave a draft, in which each setting is as it is layered. -/
theorem load_eq_settle (hstandard : s.optionalSource "config/default" = .ok standard)
    (hown : s.optionalSource "engagement" = .ok own)
    (hnamed : i.configFile.elim (.ok []) s.source = .ok named)
    (hproper : ∀ source ∈ [s.fromVariables, named, own, standard], Tree.Proper source) :
    s.load i = (Draft.of
      (Setting.layered i.overrides [s.fromVariables, named, own, standard])).settle := by
  obtain ⟨t, ht, htabled, hstated⟩ := exists_treeOf hstandard hown hnamed hproper
  have htakes (x : Setting) (w : Tree) (hw : t.stated? x = some w) : x.Takes w := by
    obtain ⟨source, hsource, hsays⟩ := List.exists_of_findSome?_eq_some ((hstated x).symm.trans hw)
    exact (hproper source hsource).takes hsays
  rw [load_eq ht (Draft.ofTree_eq htabled htakes), Draft.override_of]
  simp only [hstated]
  rfl

/-- **Settings are merged by precedence and then checked.** If each source that is there can be
read, and no source says anything out of place, then each setting is set to what the command line
says of it, or else to what the highest source says that says anything, be it a blank. Settings are
loaded if these values stand the checks, where those that are not set have their standard values;
and if not, the first that does not stand its check is told. -/
theorem load_layers (hstandard : s.optionalSource "config/default" = .ok standard)
    (hown : s.optionalSource "engagement" = .ok own)
    (hnamed : i.configFile.elim (.ok []) s.source = .ok named)
    (hproper : ∀ source ∈ [s.fromVariables, named, own, standard], Tree.Proper source) :
    let value := Setting.layered i.overrides [s.fromVariables, named, own, standard]
    (Setting.unfit? value = none → s.load i = .ok (Settings.of value)) ∧
    (∀ x : Setting, Setting.unfit? value = some x →
      s.load i = .error (.invalid x.name (x.complaint (value x)))) ∧
    ((∃ settings, s.load i = .ok settings) ↔
      (∀ level, value .level = some level → (Threshold.read? level).isSome) ∧
      1 ≤ (value .maxConnections).getD 8 ∧
      1 ≤ (value .lifetime).getD 900 ∧ (value .lifetime).getD 900 < Word.size32 ∧
      1 ≤ (value .capacity).getD 10000 ∧ (value .capacity).getD 10000 < Word.size64 ∧
      1 ≤ (value .timeout).getD 3000) := by
  intro value
  have hload := (load_eq_settle hstandard hown hnamed hproper).trans
    (Draft.settle_of fun n hn => Setting.connections_lt_of_layered hn)
  have hfit (h : Setting.unfit? value = none) : s.load i = .ok (Settings.of value) := by
    rw [hload, h]
  have hunfit (x : Setting) (h : Setting.unfit? value = some x) :
      s.load i = .error (.invalid x.name (x.complaint (value x))) := by
    rw [hload, h]
  refine ⟨hfit, hunfit, ?_⟩
  have hloaded : (∃ settings, s.load i = .ok settings) ↔ Setting.unfit? value = none := by
    constructor
    · rintro ⟨settings, hok⟩
      refine Option.eq_none_iff_forall_ne_some.mpr fun x hx => ?_
      cases hok.symm.trans (hunfit x hx)
    · exact fun h => ⟨_, hfit h⟩
  have hcapacity : (value .capacity).getD 10000 < Word.size64 := by
    cases hn : value .capacity with
    | none => exact (by decide : 10000 < Word.size64)
    | some n => exact Setting.capacity_lt_of_layered hn
  rw [hloaded, Setting.unfit?_eq_none_iff]
  constructor
  · intro hfits
    obtain ⟨hpos, hsmall⟩ := Bool.and_eq_true_iff.mp (hfits .lifetime)
    exact ⟨fun level hlevel => Option.all_eq_true _ _ |>.mp (hfits .level) level hlevel,
      of_decide_eq_true (hfits .maxConnections), of_decide_eq_true hpos,
      of_decide_eq_true hsmall, of_decide_eq_true (hfits .capacity), hcapacity,
      of_decide_eq_true (hfits .timeout)⟩
  · rintro ⟨hlevel, hconnections, hpos, hsmall, hroom, -, htimeout⟩ x
    cases x with
    | json | url | cacheEnabled => rfl
    | level => exact (Option.all_eq_true _ _).mpr hlevel
    | maxConnections => exact decide_eq_true hconnections
    | lifetime =>
      exact Bool.and_eq_true_iff.mpr ⟨decide_eq_true hpos, decide_eq_true hsmall⟩
    | capacity => exact decide_eq_true hroom
    | timeout => exact decide_eq_true htimeout

/-- Variables with a level that does not exist, a capacity, and no time at all for jobs. -/
def crossed (capacity : String) : Surroundings where
  environment := [("ENGAGEMENT__LOGGING__LEVEL", "loud"), ("PATH", "/bin"),
    ("Engagement__Cache__Capacity", capacity), ("ENGAGEMENT__BACKGROUND__TIMEOUT_MS", "0")]

/-- A command line that gives a level and a time for jobs. -/
def crossing : Invocation where
  command := .read ⟨"book", 1⟩
  overrides := { logLevel := some "debug", backgroundTimeout := some 250 }

theorem fromVariables_crossed (capacity : String) : (crossed capacity).fromVariables
    = [(Setting.level.name, .text "loud"), (Setting.capacity.name, .text capacity),
      (Setting.timeout.name, .text "0")] := by
  have hlevel := Setting.settingOf?_eq .level (v := "ENGAGEMENT__LOGGING__LEVEL") "loud"
    (by decide +kernel)
  have hpath : settingOf? ("PATH", "/bin") = none := by decide +kernel
  have hcapacity := Setting.settingOf?_eq .capacity (v := "Engagement__Cache__Capacity") capacity
    (by decide +kernel)
  have htimeout := Setting.settingOf?_eq .timeout (v := "ENGAGEMENT__BACKGROUND__TIMEOUT_MS") "0"
    (by decide +kernel)
  simp only [fromVariables, crossed, List.filterMap_cons, List.filterMap_nil, hlevel, hpath,
    hcapacity, htimeout]

theorem proper_crossed (capacity : String) (h : (Tree.asCount? (.text capacity)).isSome) :
    ∀ source ∈ [(crossed capacity).fromVariables, [], [], []], Tree.Proper source := by
  intro source hsource m hm
  simp only [List.mem_cons, List.not_mem_nil, or_false, fromVariables_crossed] at hsource
  rcases hsource with rfl | rfl | rfl | rfl
  · simp only [List.mem_cons, List.not_mem_nil, or_false] at hm
    rcases hm with rfl | rfl | rfl
    · exact Setting.properAt_name (x := .level) (.inr rfl)
    · exact Setting.properAt_name (x := .capacity) (.inr h)
    · exact Setting.properAt_name (x := .timeout) (.inr (by decide +kernel))
  all_goals cases hm

/-- The bad level and the bad time are hidden, a bad capacity is not. -/
theorem load_layers_crossed :
    (crossed "0").load crossing
      = .error (.invalid "cache.capacity" "must be greater than zero and fit in usize") ∧
    (crossed "5").load crossing
      = .ok ⟨⟨some .debug⟩, .compact, none, 8, true, 900, 5, 250⟩ := by
  obtain ⟨-, hzero, -⟩ := load_layers (i := crossing) rfl rfl rfl
    (proper_crossed "0" (by decide +kernel))
  obtain ⟨hfive, -⟩ := load_layers (i := crossing) rfl rfl rfl
    (proper_crossed "5" (by decide +kernel))
  rw [fromVariables_crossed] at hzero hfive
  exact ⟨hzero .capacity (by decide +kernel),
    (hfive (by decide +kernel)).trans (congrArg Except.ok (by decide +kernel))⟩

end Surroundings

end Popularity
