import DeployRegistry.Http.Route

/-!
# Paths of readings

Below the root of the interface every reading has a path. A request at that path reaches the reading
as long as its ids can stand in a path, and the id of an environment is not the word by which the
searches are known. The main statement is `Reading.route_path`.
-/

namespace DeployRegistry.Http

set_option autoImplicit false

open Text

/-- A text that can stand between two slashes of a path. -/
structure IsSegment (s : String) : Prop where
  notEmpty : s ≠ ""
  noSlash : '/' ∉ s.toList

/-- The path of some segments, with a slash before each. -/
def pathOf (segments : List String) : String :=
  String.ofList (segments.flatMap fun s => '/' :: s.toList)

theorem pieces_segments {s : String} (hs : '/' ∉ s.toList) {rest : List String}
    (hrest : ∀ t ∈ rest, '/' ∉ t.toList) :
    pieces (· == '/') (s.toList ++ rest.flatMap fun t => '/' :: t.toList) =
      (s :: rest).map String.toList := by
  have hnone : ∀ {t : String}, '/' ∉ t.toList → ∀ c ∈ t.toList, (c == '/') = false := by
    intro t ht c hc
    exact beq_eq_false_iff_ne.mpr fun heq => ht (heq ▸ hc)
  induction rest generalizing s with
  | nil => rw [List.flatMap_nil, List.append_nil, pieces_of_none (hnone hs)]; rfl
  | cons t rest ih =>
    rw [List.forall_mem_cons] at hrest
    rw [List.flatMap_cons, List.cons_append, pieces_append_cons (hnone hs) rfl,
      ih hrest.1 hrest.2]
    rfl

/-- The segments that are read from a path are those that it was made of. -/
theorem segments?_pathOf (root : String) {s : String} {rest : List String}
    (h : ∀ t ∈ s :: rest, IsSegment t) :
    segments? root (root ++ pathOf (s :: rest)) = some (s :: rest) := by
  obtain ⟨tail, htail⟩ : ∃ tail, tail = s.toList ++ rest.flatMap fun t => '/' :: t.toList :=
    ⟨_, rfl⟩
  have hpath : (root ++ pathOf (s :: rest)).toList = root.toList ++ '/' :: tail := by
    rw [pathOf, String.toList_append, String.toList_ofList, htail]
    rfl
  have hdrop : (root.toList ++ '/' :: tail).drop root.length = '/' :: tail := by
    rw [← String.length_toList, List.drop_left]
  have hprefix : root.toList.isPrefixOf (root.toList ++ '/' :: tail) = true :=
    List.isPrefixOf_iff_prefix.mpr (List.prefix_append _ _)
  have hpieces : (pieces (· == '/') tail).map String.ofList = s :: rest := by
    rw [htail, pieces_segments (h s List.mem_cons_self).noSlash
      fun t ht => (h t (List.mem_cons_of_mem s ht)).noSlash, List.map_map]
    exact List.map_id'' (fun _ => String.ofList_toList) _
  have hfull : (s :: rest).contains "" = false := by
    rw [List.contains_eq_mem, decide_eq_false_iff_not]
    exact fun hmem => (h "" hmem).notEmpty rfl
  simp only [segments?, hpath, hdrop, hprefix, List.head?_cons, List.drop_succ_cons,
    List.drop_zero, hpieces, hfull]
  rfl

namespace Reading

/-- The segments below the root at which a reading is asked for. -/
def segments : Reading → List String
  | .project p => ["projects", p]
  | .environments p => ["projects", p, "environments"]
  | .search p => ["projects", p, "environments", "by-deployments"]
  | .environment p e => ["projects", p, "environments", e]
  | .deployments p => ["projects", p, "deployments"]

def path (r : Reading) : String := pathOf r.segments

/-- The ids of a reading can stand in its path, and that of an environment is not taken for a
search. -/
inductive Reachable : Reading → Prop
  | project {p : String} (hp : IsSegment p) : Reachable (.project p)
  | environments {p : String} (hp : IsSegment p) : Reachable (.environments p)
  | search {p : String} (hp : IsSegment p) : Reachable (.search p)
  | environment {p e : String} (hp : IsSegment p) (he : IsSegment e)
      (hword : withoutFeed e ≠ "by-deployments") : Reachable (.environment p e)
  | deployments {p : String} (hp : IsSegment p) : Reachable (.deployments p)

/-- The words at the end of a path have no line feed behind them. -/
theorem withoutFeed_words : withoutFeed "environments" = "environments" ∧
    withoutFeed "deployments" = "deployments" ∧
    withoutFeed "by-deployments" = "by-deployments" := by
  decide

theorem find?_matching {r : Reading} (h : r.Reachable) :
    (matching r.segments).find? (·.1 == "GET") = some ("GET", .reading r) := by
  obtain ⟨henvironments, hdeployments, hsearch⟩ := withoutFeed_words
  cases h with
  | project hp => rfl
  | environments hp => simp [segments, matching, henvironments]
  | search hp => simp [segments, matching, hsearch]
  | environment hp he hword => simp [segments, matching, hword]
  | deployments hp => simp [segments, matching, hdeployments]

theorem route_path {r : Reading} (h : r.Reachable) (root : String) :
    route root "GET" (root ++ r.path) = .endpoint (.reading r) := by
  have hfixed : ∀ {s : String}, s ∈ ["projects", "environments", "by-deployments", "deployments"] →
      IsSegment s := by
    intro s hs
    simp only [List.mem_cons, List.not_mem_nil, or_false] at hs
    rcases hs with rfl | rfl | rfl | rfl <;> exact ⟨by decide, by decide⟩
  have hsegments : segments? root (root ++ r.path) = some r.segments := by
    cases h with
    | project hp => exact segments?_pathOf root (by simp [hfixed, hp])
    | environments hp => exact segments?_pathOf root (by simp [hfixed, hp])
    | search hp => exact segments?_pathOf root (by simp [hfixed, hp])
    | environment hp he hword => exact segments?_pathOf root (by simp [hfixed, hp, he])
    | deployments hp => exact segments?_pathOf root (by simp [hfixed, hp])
  have hfound : (candidates root (root ++ r.path)).find? (·.1 == "GET") =
      some ("GET", .reading r) := by
    rw [candidates, hsegments, Option.map_some, Option.getD_some, List.find?_append,
      find?_matching h]
    rfl
  simp only [route, hfound]

end Reading

end DeployRegistry.Http
