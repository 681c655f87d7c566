import BridgeBidding.Convention.Registry
import BridgeBidding.Proofs.Tree.Structure
import Mathlib.Data.List.DropRight
import Mathlib.Data.List.Nodup

/-!
# Registering conventions

A convention that can be registered under a free id is added to a registry, and any other is refused
without a change (`Registry.perform_register_cases`).  The standard registry comes about by
registering the built-in conventions one after another (`Registry.perform_forM_register_builtin`).

A registry takes requests to register a convention or to forget all conventions, and answers each
of them.  What it holds can be told from its log, which keeps every request with its answer: the
conventions registered since the registry was last cleared, `Registry.Log.registered`.

`Registry.Matches` says this of a registry and a log, and with it that the ids are all different and
that every convention could be registered.  One answer preserves it (`Registry.Matches.answer`), so
it holds after any requests (`Registry.matches_serve`).  `Registry.serve_registered` adds what
searches and further requests give: the convention last registered under an id is found, and a
refused request changes nothing.
-/

set_option autoImplicit false
set_option relaxedAutoImplicit false

namespace BridgeBidding

namespace Convention

/-- The convention can be registered under an id that is free: the examination accepts its tree, and
it has rules if its tree has bids. -/
def IsRegistrable (convention : Convention) : Prop :=
  convention.tree.examine = .ok () ∧ (convention.tree.bids ≠ [] → convention.rules ≠ [])

/-- Why the convention cannot be registered even under an id that is free. -/
def IsMalformed (convention : Convention) (error : TreeError) : Prop :=
  convention.tree.examine = .error error ∨
    convention.tree.examine = .ok () ∧ convention.tree.bids ≠ [] ∧ convention.rules = [] ∧
      error = .noRules convention.id

theorem isRegistrable_or_isMalformed (convention : Convention) :
    convention.IsRegistrable ∨ ∃ error, convention.IsMalformed error := by
  cases hexamine : convention.tree.examine with
  | error error => exact Or.inr ⟨error, Or.inl hexamine⟩
  | ok =>
    by_cases hrules : convention.tree.bids ≠ [] ∧ convention.rules = []
    · exact Or.inr ⟨_, Or.inr ⟨hexamine, hrules.1, hrules.2, rfl⟩⟩
    · exact Or.inl ⟨hexamine, fun hbids hnone ↦ hrules ⟨hbids, hnone⟩⟩

end Convention

namespace Registry

variable {registry : Registry} {convention : Convention} {id : String}

/-! ### Registering a convention -/

theorem contains_eq_true_iff : registry.contains id = true ↔ id ∈ registry.ids := by
  rw [contains, List.contains_iff_mem]

theorem store_of_not_mem (h : convention.id ∉ registry.ids) :
    registry.store convention = { conventions := registry.conventions ++ [convention] } := by
  rw [store, if_neg (mt contains_eq_true_iff.mp h)]

/-- A registration under an id that is taken fails because of that, whatever the tree is. -/
theorem perform_register_of_mem (h : convention.id ∈ registry.ids) :
    registry.perform (register convention) =
      (.error (.duplicate convention.id registry.ids), registry) := by
  rw [perform_register, if_pos (contains_eq_true_iff.mpr h)]

theorem perform_register_of_isRegistrable (hid : convention.id ∉ registry.ids)
    (h : convention.IsRegistrable) :
    registry.perform (register convention) =
      (.ok (), { conventions := registry.conventions ++ [convention] }) := by
  have hrules : ¬ (convention.rules.isEmpty && !convention.tree.bids.isEmpty) = true := by
    have hbids := h.2
    simp only [Bool.and_eq_true, List.isEmpty_iff, Bool.not_eq_true', List.isEmpty_eq_false_iff]
    exact fun ⟨hnone, hsome⟩ ↦ hbids hsome hnone
  rw [perform_register, if_neg (mt contains_eq_true_iff.mp hid), h.1]
  simp only
  rw [if_neg hrules, store_of_not_mem hid]

theorem perform_register_of_isMalformed {error : TreeError} (hid : convention.id ∉ registry.ids)
    (h : convention.IsMalformed error) :
    registry.perform (register convention) = (.error (.tree error), registry) := by
  rw [perform_register, if_neg (mt contains_eq_true_iff.mp hid)]
  rcases h with hexamine | ⟨hexamine, hbids, hrules, rfl⟩
  · rw [hexamine]
  · rw [hexamine]
    simp [hrules, hbids]

/-- All that a registration comes to: the id is taken, or the convention is added, or it is refused
for what is wrong with it. -/
theorem perform_register_cases (registry : Registry) (convention : Convention) :
    (convention.id ∈ registry.ids ∧
      registry.perform (register convention) =
        (.error (.duplicate convention.id registry.ids), registry)) ∨
    (convention.id ∉ registry.ids ∧ convention.IsRegistrable ∧
      registry.perform (register convention) =
        (.ok (), { conventions := registry.conventions ++ [convention] })) ∨
    ∃ error, convention.IsMalformed error ∧
      registry.perform (register convention) = (.error (.tree error), registry) := by
  by_cases hid : convention.id ∈ registry.ids
  · exact Or.inl ⟨hid, perform_register_of_mem hid⟩
  · rcases convention.isRegistrable_or_isMalformed with hregistrable | ⟨error, hmalformed⟩
    · exact Or.inr (Or.inl ⟨hid, hregistrable, perform_register_of_isRegistrable hid hregistrable⟩)
    · exact Or.inr (Or.inr ⟨error, hmalformed, perform_register_of_isMalformed hid hmalformed⟩)

/-- A registration that fails has stored nothing. -/
theorem snd_perform_register_of_error {error : RegistryError}
    (h : (registry.perform (register convention)).1 = .error error) :
    (registry.perform (register convention)).2 = registry := by
  obtain ⟨-, hresult⟩ | ⟨-, -, hresult⟩ | ⟨_, -, hresult⟩ :=
    registry.perform_register_cases convention
  · rw [hresult]
  · rw [hresult] at h
    cases h
  · rw [hresult]

/-! ### Registering one after another -/

/-- Conventions that can be registered, under ids that are free and all different, are all
registered, in their order. -/
theorem perform_forM_register {conventions : List Convention}
    (hids : (registry.ids ++ conventions.map Convention.id).Nodup)
    (h : ∀ convention ∈ conventions, convention.IsRegistrable) :
    registry.perform (forM conventions register) =
      (.ok (), { conventions := registry.conventions ++ conventions }) := by
  induction conventions generalizing registry with
  | nil =>
    rw [List.append_nil]
    rfl
  | cons convention rest ih =>
    obtain ⟨hregistrable, hrest⟩ := List.forall_mem_cons.mp h
    have hfree : convention.id ∉ registry.ids := by
      intro hmem
      exact (List.nodup_append.mp hids).2.2 _ hmem _ (.head _) rfl
    have hregister := perform_register_of_isRegistrable hfree hregistrable
    have hnext : (ids { conventions := registry.conventions ++ [convention] } ++
        rest.map Convention.id).Nodup := by
      simpa [ids] using hids
    rw [List.forM_cons, perform_bind_of_ok hregister, ih hnext hrest, List.append_assoc,
      List.singleton_append]

theorem isRegistrable_of_mem_builtin (h : convention ∈ builtin) : convention.IsRegistrable := by
  simp only [builtin, List.mem_cons, List.not_mem_nil, or_false] at h
  rcases h with rfl | rfl | rfl | rfl | rfl | rfl
  all_goals exact ⟨RuleTree.examine_numbered_iff.mpr (by decide), fun _ ↦ List.cons_ne_nil _ _⟩

/-- The standard registry comes about by registering the built-in conventions one after another. -/
theorem perform_forM_register_builtin :
    empty.perform (forM builtin register) = (.ok (), standard) :=
  perform_forM_register (by decide) fun _ ↦ isRegistrable_of_mem_builtin

/-! ### Requests and their log -/

/-- What is asked of a registry. -/
inductive Request where
  | register (convention : Convention)
  | clear

/-- A request with its answer. -/
structure Exchange where
  request : Request
  outcome : Except RegistryError Unit

/-- What is done for a request. -/
def Request.operation : Request → Operation Unit
  | .register convention => Registry.register convention
  | .clear => Registry.clear

/-- The answer to a request and the registry after it. -/
def answer (registry : Registry) (request : Request) : Except RegistryError Unit × Registry :=
  registry.perform request.operation

/-- Answers one more request, after those that the log has. -/
def serveNext (served : List Exchange × Registry) (request : Request) : List Exchange × Registry :=
  let (outcome, next) := served.2.answer request
  (served.1 ++ [⟨request, outcome⟩], next)

/-- The log of the requests to a new registry, and the registry after them. -/
def serve (requests : List Request) : List Exchange × Registry :=
  requests.foldl serveNext ([], .empty)

theorem serve_concat (requests : List Request) (request : Request) :
    serve (requests ++ [request]) = serveNext (serve requests) request := by
  rw [serve, List.foldl_append, List.foldl_cons, List.foldl_nil, serve]

namespace Exchange

/-- All conventions were forgotten. -/
def isClear (entry : Exchange) : Bool :=
  match entry.request with
  | .register _ => false
  | .clear => true

/-- The convention that was registered, if one was. -/
def registered? (entry : Exchange) : Option Convention :=
  match entry.request, entry.outcome with
  | .register convention, .ok () => some convention
  | _, _ => none

end Exchange

namespace Log

/-- The conventions registered since all were last forgotten, in order. -/
def registered (log : List Exchange) : List Convention :=
  (log.rtakeWhile fun entry ↦ !entry.isClear).filterMap Exchange.registered?

/-- The convention was registered under the id, and since then no other was and none were
forgotten. -/
def IsLast (log : List Exchange) (id : String) (convention : Convention) : Prop :=
  ∃ before after, log = before ++ ⟨.register convention, .ok ()⟩ :: after ∧ convention.id = id ∧
    ∀ later ∈ after, later.request ≠ .clear ∧
      ∀ other, later = ⟨.register other, .ok ()⟩ → other.id ≠ id

variable {log : List Exchange} {entry : Exchange}

theorem registered_concat_clear (outcome : Except RegistryError Unit) :
    registered (log ++ [⟨.clear, outcome⟩]) = [] := by
  rw [registered, List.rtakeWhile_concat_neg _ _ _ (by simp [Exchange.isClear]), List.filterMap_nil]

theorem registered_concat_register (outcome : Except RegistryError Unit) :
    registered (log ++ [⟨.register convention, outcome⟩]) =
      registered log ++ (Exchange.registered? ⟨.register convention, outcome⟩).toList := by
  rw [registered, List.rtakeWhile_concat_pos _ _ _ (by simp [Exchange.isClear]),
    List.filterMap_append, ← registered]
  cases outcome <;> rfl

theorem not_isLast_nil : ¬ IsLast [] id convention := by
  rintro ⟨before, after, hsplit, -⟩
  exact absurd hsplit.symm (by simp)

/-- The last convention under an id was registered by the last request, or before it and the last
request neither forgot it nor put another in its place. -/
theorem isLast_concat_iff :
    IsLast (log ++ [entry]) id convention ↔
      entry = ⟨.register convention, .ok ()⟩ ∧ convention.id = id ∨
        IsLast log id convention ∧ entry.request ≠ .clear ∧
          ∀ other, entry = ⟨.register other, .ok ()⟩ → other.id ≠ id := by
  constructor
  · rintro ⟨before, after, hsplit, hid, hafter⟩
    rcases List.eq_nil_or_concat after with rfl | ⟨between, last, rfl⟩
    · obtain ⟨-, hentry⟩ := List.append_inj' hsplit rfl
      exact Or.inl ⟨List.singleton_inj.mp hentry, hid⟩
    · rw [List.concat_eq_append, ← List.cons_append, ← List.append_assoc] at hsplit
      obtain ⟨hlog, hentry⟩ := List.append_inj' hsplit rfl
      obtain rfl := List.singleton_inj.mp hentry
      refine Or.inr ⟨⟨before, between, hlog, hid, fun later hlater ↦ ?_⟩, ?_⟩
      · exact hafter later (by simp [hlater])
      · exact hafter entry (by simp)
  · rintro (⟨rfl, hid⟩ | ⟨⟨before, after, hlog, hid, hafter⟩, hentry⟩)
    · exact ⟨log, [], rfl, hid, by simp⟩
    · refine ⟨before, after ++ [entry], by rw [hlog]; simp, hid, fun later hlater ↦ ?_⟩
      rcases List.mem_append.mp hlater with hlater | hlater
      · exact hafter later hlater
      · rwa [List.mem_singleton.mp hlater]

end Log

/-! ### What a registry and its log have in common -/

variable {log : List Exchange} {request : Request}

/-- The registry holds what its log says was registered, under ids that are all different, and all
of it could be registered. -/
structure Matches (registry : Registry) (log : List Exchange) : Prop where
  conventions_eq : registry.conventions = Log.registered log
  nodup_ids : registry.ids.Nodup
  isRegistrable : ∀ convention ∈ registry.conventions, convention.IsRegistrable
  isLast_iff : ∀ id convention,
    Log.IsLast log id convention ↔ convention ∈ registry.conventions ∧ convention.id = id

theorem matches_empty : empty.Matches [] where
  conventions_eq := rfl
  nodup_ids := List.nodup_nil
  isRegistrable := by simp [empty]
  isLast_iff id convention := by
    simp only [Log.not_isLast_nil, empty, List.not_mem_nil, false_and]

/-- A request that fails has changed nothing. -/
theorem snd_answer_of_error {error : RegistryError}
    (h : (registry.answer request).1 = .error error) : (registry.answer request).2 = registry := by
  cases request with
  | register convention => exact snd_perform_register_of_error h
  | clear => cases h

namespace Matches

/-- A refused registration is logged, and nothing else changes. -/
theorem refused (h : registry.Matches log) (error : RegistryError) :
    registry.Matches (log ++ [⟨.register convention, .error error⟩]) where
  conventions_eq := by
    rw [Log.registered_concat_register, h.conventions_eq]
    exact (List.append_nil _).symm
  nodup_ids := h.nodup_ids
  isRegistrable := h.isRegistrable
  isLast_iff id other := by
    rw [Log.isLast_concat_iff, ← h.isLast_iff]
    simp

/-- An accepted registration adds the convention at the end. -/
theorem registered (h : registry.Matches log) (hid : convention.id ∉ registry.ids)
    (hregistrable : convention.IsRegistrable) :
    Matches { conventions := registry.conventions ++ [convention] }
      (log ++ [⟨.register convention, .ok ()⟩]) where
  conventions_eq := by
    rw [Log.registered_concat_register, ← h.conventions_eq]
    rfl
  nodup_ids := by
    rw [ids, List.map_append]
    refine List.Nodup.append h.nodup_ids (List.nodup_singleton _) ?_
    rw [List.map_singleton, List.disjoint_singleton]
    exact hid
  isRegistrable other hother := by
    rcases List.mem_append.mp hother with hother | hother
    · exact h.isRegistrable other hother
    · rwa [List.mem_singleton.mp hother]
  isLast_iff id other := by
    rw [Log.isLast_concat_iff, h.isLast_iff, List.mem_append, List.mem_singleton]
    constructor
    · rintro (⟨hentry, hother⟩ | ⟨⟨hmem, hother⟩, -⟩)
      · cases hentry
        exact ⟨Or.inr rfl, hother⟩
      · exact ⟨Or.inl hmem, hother⟩
    · rintro ⟨hmem | rfl, rfl⟩
      · -- the new id is free, so the new convention is not in the way of an earlier one
        refine Or.inr ⟨⟨hmem, rfl⟩, nofun, fun newer hnewer hsame ↦ hid ?_⟩
        cases hnewer
        rw [hsame]
        exact List.mem_map_of_mem hmem
      · exact Or.inl ⟨rfl, rfl⟩

/-- Nothing is left of what was registered before the registry is cleared. -/
theorem cleared : empty.Matches (log ++ [⟨.clear, .ok ()⟩]) where
  conventions_eq := (Log.registered_concat_clear _).symm
  nodup_ids := List.nodup_nil
  isRegistrable := by simp [empty]
  isLast_iff id other := by
    rw [Log.isLast_concat_iff]
    simp [empty]

/-- An answer takes a registry that matches its log to one that does. -/
theorem answer (h : registry.Matches log) (request : Request) :
    (registry.answer request).2.Matches (log ++ [⟨request, (registry.answer request).1⟩]) := by
  rw [Registry.answer]
  cases request with
  | register convention =>
    rw [Request.operation]
    obtain ⟨-, hresult⟩ | ⟨hid, hregistrable, hresult⟩ | ⟨_, -, hresult⟩ :=
      registry.perform_register_cases convention
    · rw [hresult]
      exact h.refused _
    · rw [hresult]
      exact h.registered hid hregistrable
    · rw [hresult]
      exact h.refused _
  | clear =>
    rw [Request.operation, perform_clear]
    exact cleared

/-- A search finds the convention last registered under the id. -/
theorem find?_eq_some_iff (h : registry.Matches log) :
    registry.find? id = some convention ↔ Log.IsLast log id convention := by
  rw [h.isLast_iff]
  have hid {found : Convention} (hfind : registry.find? id = some found) : found.id = id := by
    simpa using List.find?_some hfind
  constructor
  · exact fun hfind ↦ ⟨List.mem_of_find?_eq_some hfind, hid hfind⟩
  · rintro ⟨hmem, rfl⟩
    cases hfind : registry.find? convention.id with
    | none => exact absurd (List.find?_eq_none.mp hfind convention hmem) (by simp)
    | some found =>
      rw [List.inj_on_of_nodup_map h.nodup_ids (List.mem_of_find?_eq_some hfind) hmem (hid hfind)]

theorem get_eq_ok_iff (h : registry.Matches log) :
    registry.get id = .ok convention ↔ Log.IsLast log id convention := by
  rw [← h.find?_eq_some_iff, get]
  cases registry.find? id <;> simp

theorem get_of_not_isLast (h : registry.Matches log)
    (hnone : ∀ convention, ¬ Log.IsLast log id convention) :
    registry.get id = .error (.unknown id registry.ids) := by
  have hfind : registry.find? id = none := by
    rw [Option.eq_none_iff_forall_ne_some]
    exact fun convention hsome ↦ hnone convention (h.find?_eq_some_iff.mp hsome)
  rw [get, hfind]

end Matches

/-- A registry matches its log after any requests. -/
theorem matches_serve (requests : List Request) :
    (serve requests).2.Matches (serve requests).1 := by
  induction requests using List.reverseRecOn with
  | nil => exact matches_empty
  | append_singleton requests request ih =>
    rw [serve_concat]
    exact ih.answer request

/-- The log has every request. -/
theorem map_request_serve (requests : List Request) :
    (serve requests).1.map Exchange.request = requests := by
  induction requests using List.reverseRecOn with
  | nil => rfl
  | append_singleton requests request ih =>
    rw [serve_concat, serveNext, List.map_append, ih, List.map_singleton]

/-! ### What requests and searches give -/

/-- After any requests to a new registry, it holds the conventions registered since it was last
cleared, in order and under ids that are all different, and each of them has a well-formed tree and
has rules if its tree has bids.  A search for an id gives the convention last registered under it,
or else an error with the ids.  A request that fails leaves the registry as it was.  One more
convention is refused as a duplicate if its id is taken, whatever else is wrong with it; if the id
is free it is added at the end, or refused for what is wrong with its tree. -/
theorem serve_registered (requests : List Request) :
    let log := (serve requests).1
    let registry := (serve requests).2
    log.map Exchange.request = requests ∧
    registry.conventions = Log.registered log ∧
    registry.ids = (Log.registered log).map Convention.id ∧
    registry.ids.Nodup ∧
    (∀ convention ∈ registry.conventions, convention.IsRegistrable) ∧
    (∀ id convention, registry.get id = .ok convention ↔ Log.IsLast log id convention) ∧
    (∀ id, (∀ convention, ¬ Log.IsLast log id convention) →
      registry.get id = .error (.unknown id registry.ids)) ∧
    (∀ request error, (registry.answer request).1 = .error error →
      (registry.answer request).2 = registry) ∧
    ∀ convention,
      (convention.id ∈ registry.ids →
        registry.answer (.register convention) =
          (.error (.duplicate convention.id registry.ids), registry)) ∧
      (convention.id ∉ registry.ids → convention.IsRegistrable →
        registry.answer (.register convention) =
          (.ok (), { conventions := registry.conventions ++ [convention] })) ∧
      (convention.id ∉ registry.ids → ¬ convention.IsRegistrable →
        ∃ error, convention.IsMalformed error ∧
          registry.answer (.register convention) = (.error (.tree error), registry)) := by
  have hmatches := matches_serve requests
  refine ⟨map_request_serve requests, hmatches.conventions_eq, ?_, hmatches.nodup_ids,
    hmatches.isRegistrable, fun id convention ↦ hmatches.get_eq_ok_iff,
    fun id ↦ hmatches.get_of_not_isLast, fun request error ↦ snd_answer_of_error,
    fun convention ↦ ⟨fun hid ↦ ?_, fun hid hregistrable ↦ ?_, fun hid hregistrable ↦ ?_⟩⟩
  · rw [ids, hmatches.conventions_eq]
  · exact perform_register_of_mem hid
  · exact perform_register_of_isRegistrable hid hregistrable
  · obtain ⟨error, hmalformed⟩ :=
      convention.isRegistrable_or_isMalformed.resolve_left hregistrable
    exact ⟨error, hmalformed, perform_register_of_isMalformed hid hmalformed⟩

end Registry

end BridgeBidding
