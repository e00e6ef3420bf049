import Mathlib.Data.List.Flatten
import Mathlib.Data.List.Nodup
import Polyfill.Environment
import Polyfill.Proofs.Text.Pieces
/-!
# Lists of names that describe a host

A list of names is read by adding the capability of each name in turn, so it is not clear at once
that only the set of its names counts.  `Host.insertNames_eq` says so: adding names to a host gives
the union with the host they stand for (`Host.ofNames`), or fails, whatever their order.  What a
list names is said by `Host.Mentions`, through pieces and cores of texts.

An environment installs what its host lacks; the names it defines are apart from each other and from
the names that are always there, so each is there exactly if its capability is lacking.
-/

namespace Polyfill

/-! ## The names of capabilities -/

namespace Capability

/-- The global names that are defined only if the host lacks their capability. -/
def conditionalNames : List String :=
  all.flatMap globalNames

lemma mem_conditionalNames {name : String} :
    name ∈ conditionalNames ↔ ∃ c : Capability, name ∈ c.globalNames := by
  simp [conditionalNames, List.mem_flatMap, mem_all]

/-- No name belongs to two capabilities, and none is always there. -/
lemma nodup_globals : (Environment.unconditionalNames ++ conditionalNames).Nodup := by
  decide

/-- A name belongs to one capability only. -/
lemma eq_of_mem_globalNames {c d : Capability} {name : String} (hc : name ∈ c.globalNames)
    (hd : name ∈ d.globalNames) : c = d := by
  have hapart : all.all (fun c => all.all fun d =>
      c == d || c.globalNames.all fun name => !d.globalNames.contains name) = true := by decide
  have hcd := List.all_eq_true.mp (List.all_eq_true.mp hapart c (mem_all c)) d (mem_all d)
  rw [Bool.or_eq_true] at hcd
  rcases hcd with heq | hnone
  · exact eq_of_beq heq
  · have := List.all_eq_true.mp hnone name hc
    simp [hd] at this

end Capability

namespace Host

open Capability (conditionalNames)

/-- A name stands for the capability that it belongs to. -/
lemma capability_of_mem {name : String} {c : Capability} (h : name ∈ c.globalNames) :
    capability name = .ok c := by
  unfold capability Capability.ofGlobalName?
  cases hfind : Capability.all.find? fun c => c.globalNames.contains name with
  | none =>
    have := List.find?_eq_none.mp hfind c (Capability.mem_all c)
    simp [h] at this
  | some d =>
    have hd : name ∈ d.globalNames := by simpa using List.find?_some hfind
    rw [Capability.eq_of_mem_globalNames hd h]

lemma capability_of_not_mem {name : String} (h : name ∉ conditionalNames) :
    capability name = .error .invalidArgument := by
  have hnone : Capability.ofGlobalName? name = .none := by
    refine List.find?_eq_none.mpr fun c _ hc => h ?_
    exact Capability.mem_conditionalNames.mpr ⟨c, by simpa using hc⟩
  rw [capability, hnone]

/-! ## Adding names -/

/-- The host that provides what some names stand for. -/
def ofNames (names : List String) : Host :=
  ⟨fun c => names.any fun name => c.globalNames.contains name⟩

lemma provides_ofNames {names : List String} {c : Capability} :
    (ofNames names).provides c = true ↔ ∃ name ∈ c.globalNames, name ∈ names := by
  simp only [ofNames, List.any_eq_true, List.contains_iff_mem]
  exact exists_congr fun name => and_comm

lemma ofNames_append (a b : List String) : ofNames (a ++ b) = (ofNames a).union (ofNames b) := by
  ext c
  simp [ofNames, union]

/-- Adding the capability of a name is adding the name. -/
lemma insert_union {name : String} {c : Capability} (h : name ∈ c.globalNames) (host : Host)
    (names : List String) :
    (host.insert c).union (ofNames names) = host.union (ofNames (name :: names)) := by
  ext d
  have hname : d.globalNames.contains name = (d == c) := by
    rw [Bool.eq_iff_iff, List.contains_iff_mem, beq_iff_eq]
    constructor
    · exact fun hd => Capability.eq_of_mem_globalNames hd h
    · rintro rfl
      exact h
  simp only [union, insert, ofNames, List.any_cons, hname]
  cases d == c <;> cases host.provides d <;> rfl

/-- Adding names one by one adds what they stand for, unless one of them is unknown. -/
theorem insertNames_eq (host : Host) (names : List String) :
    host.insertNames names =
      if ∀ name ∈ names, name ∈ conditionalNames then .ok (host.union (ofNames names))
      else .error .invalidArgument := by
  induction names generalizing host with
  | nil =>
    have hnone : host.union (ofNames []) = host := by
      ext c
      exact Bool.or_false _
    simp [insertNames, hnone]
  | cons name names ih =>
    by_cases hname : name ∈ conditionalNames
    · obtain ⟨c, hc⟩ := Capability.mem_conditionalNames.mp hname
      rw [insertNames, capability_of_mem hc]
      simp only [ih, List.forall_mem_cons, hname, true_and, insert_union hc]
    · rw [insertNames, capability_of_not_mem hname]
      simp [hname]

/-- A list of names describes the host that provides what its names stand for. -/
lemma parse_eq (list : String) :
    parse list = if ∀ name ∈ names list, name ∈ conditionalNames then .ok (ofNames (names list))
      else .error .invalidArgument := by
  have hnone : none.union (ofNames (names list)) = ofNames (names list) := by
    ext c
    exact Bool.false_or _
  rw [parse, insertNames_eq, hnone]

/-! ## The names in a list -/

/-- A list mentions a text that is the core of one of its pieces between commas. -/
def Mentions (list name : String) : Prop :=
  ∃ piece, Text.IsPiece ',' list.toList piece ∧ Text.IsCore piece name.toList

lemma mem_names_iff {list name : String} :
    name ∈ names list ↔ Mentions list name ∧ name ≠ "" := by
  simp only [names, List.mem_map, List.mem_filter, Mentions, ← Text.mem_splitOn_iff,
    ← Text.trim_eq_iff]
  constructor
  · rintro ⟨core, ⟨⟨piece, hpiece, rfl⟩, hne⟩, rfl⟩
    refine ⟨⟨piece, hpiece, String.toList_ofList.symm⟩, fun hempty => ?_⟩
    rw [String.ofList_eq_empty_iff] at hempty
    simp [hempty] at hne
  · rintro ⟨⟨piece, hpiece, hcore⟩, hne⟩
    refine ⟨Text.trim piece, ⟨⟨piece, hpiece, rfl⟩, ?_⟩, by rw [hcore, String.ofList_toList]⟩
    rw [hcore]
    simpa using hne

/-- Two lists joined by a comma have the names of both. -/
lemma names_append (a b : String) : names (a ++ "," ++ b) = names a ++ names b := by
  have hsplit : Text.splitOn ',' (a ++ "," ++ b).toList =
      Text.splitOn ',' a.toList ++ Text.splitOn ',' b.toList := by
    rw [← Text.splitOn_append]
    simp
  simp only [names, hsplit, List.map_append, List.filter_append]

/-- A list is read exactly if all its names are known. -/
lemma parse_isOk_iff {list : String} : (∃ host, parse list = .ok host) ↔
    ∀ name, Mentions list name → name = "" ∨ name ∈ conditionalNames := by
  have hknown : (∀ name ∈ names list, name ∈ conditionalNames) ↔
      ∀ name, Mentions list name → name = "" ∨ name ∈ conditionalNames := by
    simp only [mem_names_iff, and_imp, or_iff_not_imp_left, ne_eq]
  rw [← hknown, parse_eq]
  split <;> simp_all

lemma provides_of_parse {list : String} {host : Host} (h : parse list = .ok host)
    (c : Capability) :
    host.provides c = true ↔ ∃ name ∈ c.globalNames, Mentions list name := by
  rw [parse_eq] at h
  split at h
  · cases h
    have hne : ∀ name ∈ c.globalNames, name ≠ "" := by
      cases c <;> decide
    rw [provides_ofNames]
    refine exists_congr fun name => and_congr_right fun hname => ?_
    rw [mem_names_iff]
    exact and_iff_left (hne name hname)
  · cases h

/-- Joining two lists by a comma unites the hosts that they describe; if one of them cannot be read,
neither can the whole. -/
lemma parse_append (a b : String) : parse (a ++ "," ++ b) =
    match parse a, parse b with
    | .ok host, .ok host' => .ok (host.union host')
    | _, _ => .error .invalidArgument := by
  simp only [parse_eq, names_append, List.forall_mem_append, ofNames_append]
  by_cases ha : ∀ name ∈ names a, name ∈ conditionalNames
  · by_cases hb : ∀ name ∈ names b, name ∈ conditionalNames
    · rw [if_pos ha, if_pos hb, if_pos ⟨ha, hb⟩]
    · rw [if_pos ha, if_neg hb, if_neg fun h => hb h.2]
  · rw [if_neg ha, if_neg fun h => ha h.1]

/-- Only the set of names counts. -/
lemma parse_congr {a b : String} (h : ∀ name, name ≠ "" → (Mentions a name ↔ Mentions b name)) :
    parse a = parse b := by
  have hmem : ∀ name, name ∈ names a ↔ name ∈ names b := by
    intro name
    rw [mem_names_iff, mem_names_iff]
    exact and_congr_left (h name)
  have hhost : ofNames (names a) = ofNames (names b) := by
    ext c
    rw [Bool.eq_iff_iff, provides_ofNames, provides_ofNames]
    simp only [hmem]
  simp only [parse_eq, hmem, hhost]

end Host

/-! ## What is installed -/

namespace Environment

open Capability (conditionalNames)

lemma sublist_globalNames (env : Environment) :
    env.globalNames.Sublist (unconditionalNames ++ conditionalNames) := by
  refine List.Sublist.append (List.Sublist.refl _) ?_
  exact List.filter_sublist.flatMap Capability.globalNames

/-- A conditional name is defined exactly if its capability is installed. -/
lemma mem_globalNames_iff (env : Environment) {c : Capability} {name : String}
    (h : name ∈ c.globalNames) : name ∈ env.globalNames ↔ env.isInstalled c = true := by
  have hcond : name ∈ conditionalNames := Capability.mem_conditionalNames.mpr ⟨c, h⟩
  have hun : name ∉ unconditionalNames := fun hmem =>
    (List.nodup_append.mp Capability.nodup_globals).2.2 name hmem name hcond rfl
  simp only [globalNames, List.mem_append, hun, false_or, List.mem_flatMap, installed,
    List.mem_filter]
  constructor
  · rintro ⟨d, ⟨-, hd⟩, hname⟩
    rwa [Capability.eq_of_mem_globalNames h hname]
  · exact fun hc => ⟨c, ⟨Capability.mem_all c, hc⟩, h⟩

end Environment

open Capability (conditionalNames)

/-- Lists of names are read as sets.  A list can be read exactly if every core of a piece between
commas is empty or one of the eleven conditional names, and is an invalid argument otherwise; the
host provides a capability exactly if the list mentions one of its names.  Two lists joined by a
comma describe the union of what both describe, and lists that mention the same names describe the
same host.  The environment installed over the host has the capabilities that the host lacks, in
order; it defines no name twice, and a conditional name exactly if the host lacks its capability. -/
theorem host_list_read_as_set :
    (conditionalNames.length = 11 ∧ conditionalNames.Nodup) ∧
    (∀ list, ((∃ host, Host.parse list = .ok host) ↔
        ∀ name, Host.Mentions list name → name = "" ∨ name ∈ conditionalNames) ∧
      ((¬ ∃ host, Host.parse list = .ok host) → Host.parse list = .error .invalidArgument)) ∧
    (∀ list host, Host.parse list = .ok host →
      (∀ c, host.provides c = true ↔ ∃ name ∈ c.globalNames, Host.Mentions list name) ∧
      ∀ ops s, ∃ env s', (Environment.install host ops).perform s = (.ok env, s') ∧
        env.installed = Capability.all.filter (fun c => !host.provides c) ∧
        env.globalNames.Nodup ∧
        ∀ c : Capability, ∀ name ∈ c.globalNames,
          name ∈ env.globalNames ↔ host.provides c = false) ∧
    (∀ a b, Host.parse (a ++ "," ++ b) =
      match Host.parse a, Host.parse b with
      | .ok host, .ok host' => .ok (host.union host')
      | _, _ => .error .invalidArgument) ∧
    ∀ a b, (∀ name, name ≠ "" → (Host.Mentions a name ↔ Host.Mentions b name)) →
      Host.parse a = Host.parse b := by
  refine ⟨⟨rfl, (List.nodup_append.mp Capability.nodup_globals).2.1⟩,
    fun list => ⟨Host.parse_isOk_iff, fun hno => ?_⟩,
    fun list host h => ⟨Host.provides_of_parse h, fun ops s => ?_⟩, Host.parse_append,
    fun a b h => Host.parse_congr h⟩
  · rw [Host.parse_eq] at hno ⊢
    split
    · rename_i hknown
      exact absurd ⟨_, if_pos hknown⟩ hno
    · rfl
  · refine ⟨⟨host, ops⟩, _, rfl, rfl, ?_, fun c name hname => ?_⟩
    · exact Capability.nodup_globals.sublist (Environment.sublist_globalNames _)
    · rw [Environment.mem_globalNames_iff _ hname, Environment.isInstalled, Bool.not_eq_true']

/-- One member of the timer family, between blanks and empty pieces, takes the place of them all. -/
theorem host_list_read_as_set_of_clearInterval :
    ∃ host, Host.parse " clearInterval,,\tWorker " = .ok host ∧
      host.provides .timers = true ∧
      ∀ ops s, ∃ env s', (Environment.install host ops).perform s = (.ok env, s') ∧
        "setTimeout" ∉ env.globalNames ∧ "encodeURI" ∈ env.globalNames := by
  obtain ⟨-, -, hread, -, -⟩ := host_list_read_as_set
  obtain ⟨host, hhost⟩ : ∃ host, Host.parse " clearInterval,,\tWorker " = .ok host := ⟨_, rfl⟩
  obtain ⟨hprovides, hinstall⟩ := hread _ host hhost
  have hmentions : Host.Mentions " clearInterval,,\tWorker " "clearInterval" :=
    (Host.mem_names_iff.mp (by decide)).1
  have htimers : host.provides .timers = true :=
    (hprovides .timers).mpr ⟨"clearInterval", by decide, hmentions⟩
  refine ⟨host, hhost, htimers, fun ops s => ?_⟩
  obtain ⟨env, s', henv, -, -, hnames⟩ := hinstall ops s
  refine ⟨env, s', henv, ?_, ?_⟩
  · rw [hnames .timers "setTimeout" (by decide), htimers]
    decide
  · rw [hnames .encodeUri "encodeURI" (by decide)]
    cases hhost
    rfl

end Polyfill
