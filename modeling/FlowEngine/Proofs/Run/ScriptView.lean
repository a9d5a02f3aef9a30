import FlowEngine.Proofs.Reference.Saved
import FlowEngine.Proofs.Run.Calls
import FlowEngine.Proofs.Run.Ledger

/-!
# What scripts see of other nodes

References look a key up under the ids first and under the keys of labels after that. The input of a
script is one map of both, written in this order, so there the label wins. The two agree on a key
unless a label gives the id of another node.
-/

namespace FlowEngine

namespace Scope

variable {context : Context} {key part : String} {outcome : Outcome}

theorem path_node (loop : Option LoopState) (hk : '.' ∉ key.toList) (hp : '.' ∉ part.toList)
    (hs : Text.lower key ≠ "start") (ho : context.outcome? key = some outcome) :
    (⟨context, loop⟩ : Scope).path ("nodes." ++ key ++ "." ++ part) =
      .ok (Outcome.optionalObject (outcome.outputNamed part)) := by
  have hchars : ("nodes." ++ key ++ "." ++ part).toList =
      'n' :: 'o' :: 'd' :: 'e' :: 's' :: '.' :: (key.toList ++ '.' :: part.toList) := by simp
  have hinput : withoutInput ("nodes." ++ key ++ "." ++ part) = "nodes." ++ key ++ "." ++ part := by
    simp [withoutInput, Text.startsWith, hchars]
  have hfront : Text.dottedParts ("nodes." ++ key) = "nodes" :: Text.dottedParts key :=
    Text.dottedParts_append "nodes" key
  have hparts : Text.dottedParts ("nodes." ++ key ++ "." ++ part) = ["nodes", key, part] := by
    rw [Text.dottedParts_append, hfront, Text.dottedParts_eq_singleton hk,
      Text.dottedParts_eq_singleton hp]
    rfl
  have hkey : nodeKey? context key = some key := by
    rw [nodeKey?, if_neg]
    simpa using hs
  rw [path_eq_parts, hinput, hparts]
  show Except.ok (nodePath context key part []) = _
  rw [nodePath, hkey, Option.bind_some, ho]
  rfl

theorem spaceless_node (hk : Text.Spaceless key.toList) (hp : Text.Spaceless part.toList) :
    Text.Spaceless ("nodes." ++ key ++ "." ++ part).toList := by
  have hfront : ∀ c ∈ "nodes.".toList, Text.isBlank c = false := Text.visible_of_all (by decide)
  have hdot : ∀ c ∈ ".".toList, Text.isBlank c = false := Text.visible_of_all (by decide)
  refine ⟨by simp, ?_⟩
  intro c hc
  simp only [String.toList_append, List.mem_append] at hc
  rcases hc with ((hc | hc) | hc) | hc
  · exact hfront c hc
  · exact hk.visible c hc
  · exact hdot c hc
  · exact hp.visible c hc

end Scope

namespace Context

variable {context : Context} {key : String} {outcome : Outcome}

/-- The map of outcomes that a script gets, if it gets any input. -/
def ShowsScript (context : Context) (seen : Entries Value) : Prop :=
  ∃ input, context.scriptInput = .ok input ∧ input.field? "nodes" = some (.object seen)

theorem ShowsScript.eq {seen : Entries Value} (h : context.ShowsScript seen) :
    seen = context.outcomesForScript := by
  obtain ⟨input, hi, hf⟩ := h
  unfold scriptInput at hi
  split at hi
  · cases hi
    exact (Value.object.inj (Option.some.inj hf)).symm
  · cases hi

theorem showsScript_or_tooDeep (context : Context) :
    context.ShowsScript context.outcomesForScript ∨ context.scriptInput = .error .tooDeep := by
  unfold ShowsScript scriptInput
  split
  · exact Or.inl ⟨_, rfl, rfl⟩
  · exact Or.inr rfl

theorem get?_outcomesForScript (hd : context.aliases.keys.Nodup) (key : String) :
    context.outcomesForScript.get? key =
      ((context.aliases.get? key).or (context.nodes.get? key)).map Outcome.snapshot := by
  have hkeys : (context.aliases.mapValues Outcome.snapshot).keys.Nodup := by
    rw [Entries.keys_mapValues]
    exact hd
  rw [outcomesForScript, Entries.get?_putAll_of_nodup hkeys, Entries.get?_mapValues,
    Entries.get?_mapValues]
  cases context.aliases.get? key <;> rfl

/-- A script sees what references find, unless a label with this key gives something else. -/
theorem sees_iff (hd : context.aliases.keys.Nodup) (ho : context.outcome? key = some outcome) :
    context.outcomesForScript.get? key = some outcome.snapshot ↔
      ∀ named, context.aliases.get? key = some named → named.snapshot = outcome.snapshot := by
  rw [get?_outcomesForScript hd]
  cases hn : context.aliases.get? key with
  | some named => simp
  | none =>
    have hown : context.nodes.get? key = some outcome := by
      rw [outcome?, hn, Option.or_none] at ho
      exact ho
    simp [hown]

end Context

namespace Engine

open Doing

variable {engine : Engine} {graph : FlowGraph} {executionId : String} {payload : Entries Value}
  {walk : Walk} {context : Context} {key : String} {outcome named : Outcome}

theorem nodup_aliases_keep (node : Node) (outcome : Outcome) (h : context.aliases.keys.Nodup) :
    (context.keep node outcome).aliases.keys.Nodup := by
  unfold Context.keep
  cases aliasOfLabel? node.label with
  | none => exact h
  | some key => exact Entries.nodup_put h key outcome

theorem nodup_aliases_recorded (node : Node) (outcome : Outcome)
    (h : context.aliases.keys.Nodup) : (recorded node outcome context).aliases.keys.Nodup := by
  unfold recorded
  split
  · exact h
  · rw [Context.record_eq]
    exact nodup_aliases_keep node outcome h

theorem Reaches.nodup_aliases (hm : engine.Modest)
    (h : Reaches engine graph executionId payload walk context) : context.aliases.keys.Nodup := by
  refine h.invariant (fun _ context => context.aliases.keys.Nodup) ?_ ?_ ?_ ?_
  · intro now
    rw [opening, Context.seed_eq]
    exact nodup_aliases_keep _ _ List.nodup_nil
  · intro walk scene node queue executor _ _ _ hg hd
    refine Yields.mono ?_ (hm.yields_run hg (entered node scene))
    rintro outcome scene' ⟨hkept, -, -⟩
    have haliases : scene'.context.aliases = scene.context.aliases := congrArg (·.2.1) hkept
    obtain ⟨message, hturn⟩ := Turn.after_context graph node outcome { walk with queue }
      (recorded node outcome scene'.context)
    show (Turn.after _ _ _ _ _).context.aliases.keys.Nodup
    rw [hturn]
    exact nodup_aliases_recorded node outcome (haliases ▸ hd)
  · intro _ _ _ _ _ _ _ hd
    exact hd
  · intro _ _ _ hd
    exact hd

/-- No label of a node gives a key that is the id of another node. -/
def Unshadowed (graph : FlowGraph) (key : String) : Prop :=
  ∀ a b, graph.Addressed a → graph.Addressed b → aliasOfLabel? a.label = some key → b.id = key →
    a = b

/-- Where the label and the id with one key belong to one node, the same is recorded under both. -/
theorem Ledger.same (h : engine.Ledger (startOf graph) payload walk context)
    (hr : walk.Reachable graph) (hu : Unshadowed graph key)
    (hown : context.nodes.get? key = some outcome)
    (hnamed : context.aliases.get? key = some named) : named = outcome := by
  have hvisited : ∀ v ∈ recordings (startOf graph) payload walk.visits, graph.Addressed v.node := by
    intro v hv
    rcases List.mem_cons.mp hv with rfl | hv
    · exact Or.inl rfl
    · exact hr.visited_addressed v (List.mem_filter.mp hv).1
  -- Some record has the key as its id and some as the key of its label, so each has it as both.
  obtain ⟨front, v, back, hsplit, ⟨hid, -⟩, -⟩ := (h.nodes key outcome).mp hown
  have hv := hvisited v (hsplit ▸ by simp)
  obtain ⟨front', w, back', hsplit', ⟨hlabel, -⟩, -⟩ := (h.aliases key named).mp hnamed
  have hw := hvisited w (hsplit' ▸ by simp)
  have hboth : ∀ u ∈ recordings (startOf graph) payload walk.visits, ∀ value,
      Visit.ByAlias u key value ↔ Visit.ById u key value := by
    intro u hu' value
    apply and_congr_left'
    constructor
    · intro hl
      rw [hu u.node v.node (hvisited u hu') hv hl hid]
      exact hid
    · intro hi
      rw [← hu w.node u.node hw (hvisited u hu') hlabel hi]
      exact hlabel
  have hlatest := (latest_congr hboth named).mp ((h.aliases key named).mp hnamed)
  exact Option.some.inj (((h.nodes key named).mpr hlatest).symm.trans hown)

theorem Arises.kept (hm : engine.Modest) (h : Arises engine graph executionId payload context) :
    ∃ walk before, Reaches engine graph executionId payload walk before ∧
      context.kept = before.kept := by
  refine h.invariant (fun context => ∃ walk before,
    Reaches engine graph executionId payload walk before ∧ context.kept = before.kept) ?_ ?_ ?_
  · exact fun walk context h => ⟨walk, context, h, rfl⟩
  · exact fun _ _ hkept => hkept
  · rintro node executor scene hg ⟨walk, before, h, hkept⟩
    refine Ensures.mono ?_ ((hm.keeps.of_get hg).same scene)
    exact fun _ scene' hsame => ⟨walk, before, h, hsame.trans hkept⟩

/-- For each key with an outcome, references lead to what is recorded under the id, and else under
the label. A script sees the written form of the same exactly if no other outcome is recorded under
a label with this key, and always where the key is not the id of one node and from the label of
another. A script has no input at all where some outcome is too deep to be written. -/
theorem Arises.script_sees (hm : engine.Modest)
    (h : Arises engine graph executionId payload context) :
    ((∃ seen, context.ShowsScript seen) ∨ context.scriptInput = .error .tooDeep) ∧
    ∀ key outcome, context.outcome? key = some outcome →
      (∀ loop part, Text.lower key ≠ "start" → '.' ∉ key.toList → '.' ∉ part.toList →
        (⟨context, loop⟩ : Scope).path ("nodes." ++ key ++ "." ++ part) =
          .ok (Outcome.optionalObject (outcome.outputNamed part)) ∧
        (Text.Spaceless key.toList → Text.Spaceless part.toList → ∀ name,
          (⟨context, loop⟩ : Scope).settings
              [(name, .text ("\x7b\x7b" ++ ("nodes." ++ key ++ "." ++ part) ++ "\x7d\x7d"))] =
            .ok [(name, Scope.settingValue
              (Outcome.optionalObject (outcome.outputNamed part)))])) ∧
      ∀ seen, context.ShowsScript seen →
        (seen.get? key = some outcome.snapshot ↔
          ∀ named, context.aliases.get? key = some named → named.snapshot = outcome.snapshot) ∧
        (Unshadowed graph key → seen.get? key = some outcome.snapshot) := by
  obtain ⟨walk, before, hreaches, hkept⟩ := h.kept hm
  have hnodes : context.nodes = before.nodes := congrArg (·.1) hkept
  have haliases : context.aliases = before.aliases := congrArg (·.2.1) hkept
  have hd : context.aliases.keys.Nodup := haliases ▸ hreaches.nodup_aliases hm
  refine ⟨context.showsScript_or_tooDeep.imp_left fun hseen => ⟨_, hseen⟩, ?_⟩
  intro key outcome ho
  constructor
  · intro loop part hs hk hp
    have hpath := Scope.path_node loop hk hp hs ho
    refine ⟨hpath, ?_⟩
    intro hkey hpart name
    rw [Scope.settings_spaceless _ name (Scope.spaceless_node hkey hpart), hpath]
    rfl
  · intro seen hseen
    have hiff := Context.sees_iff hd ho
    rw [hseen.eq]
    refine ⟨hiff, ?_⟩
    intro hu
    apply hiff.mpr
    intro named hnamed
    rw [haliases] at hnamed
    cases hown : before.nodes.get? key with
    | none =>
      rw [Context.outcome?, hnodes, haliases, hown, hnamed] at ho
      cases ho
      rfl
    | some own =>
      rw [Context.outcome?, hnodes, hown] at ho
      cases ho
      rw [(hreaches.ledger hm).same hreaches.reachable hu hown hnamed]

end Engine

namespace Shadow

def first : Node := ⟨"a", .mapper, "b", [("output", .object [("v", .text "1")])], []⟩

def flow : FlowGraph :=
  .plain [.plainStart, first, .plainMapper "b" "2"] [("start", "a", .always), ("a", "b", .always)]

def outcomeOf (node : Node) (value : String) : Outcome :=
  Outcome.plain node .success [("v", .text value)]

theorem arises_both : ∃ context, Engine.Arises Engine.plain flow "run" [] context ∧
    context.ShowsScript context.outcomesForScript ∧
    context.outcome? "a" = some (outcomeOf first "1") ∧
    context.aliases.get? "b" = some (outcomeOf first "1") ∧
    context.outcome? "b" = some (outcomeOf (.plainMapper "b" "2") "2") := by
  have hrun : ((Engine.plain.evaluated flow "run" []).map fun passage =>
      (passage.context.scriptInput.toOption.isSome, passage.context.outcome? "a",
        passage.context.aliases.get? "b", passage.context.outcome? "b")) =
      .ok (true, some (outcomeOf first "1"), some (outcomeOf first "1"),
        some (outcomeOf (.plainMapper "b" "2") "2")) := by decide +kernel
  obtain ⟨passage, -, hreaches, -, hends⟩ := Engine.exists_of_evaluated hrun
  simp only [Prod.mk.injEq] at hends
  obtain ⟨hinput, ha, hlabel, hb⟩ := hends
  refine ⟨passage.context, .between hreaches, ?_, ha, hlabel, hb⟩
  rcases passage.context.showsScript_or_tooDeep with hseen | hdeep
  · exact hseen
  · rw [hdeep] at hinput
    cases hinput

example : aliasOfLabel? first.label = some "b" := by decide +kernel

/-- No other node is called by the id of the first one, so a script sees it as references do. -/
theorem first_seen : ∃ context, Engine.Arises Engine.plain flow "run" [] context ∧
    context.outcomesForScript.get? "a" = some (outcomeOf first "1").snapshot ∧
    (⟨context, none⟩ : Scope).path "nodes.a.output" = .ok (.object [("v", .text "1")]) := by
  obtain ⟨context, harises, hseen, ha, -⟩ := arises_both
  have hlabels : Engine.Unshadowed flow "a" := by
    rintro node other hn - hlabel -
    have hnames : ∀ node ∈ flow.nodes, aliasOfLabel? node.label ≠ some "a" := by decide
    rcases hn with rfl | hn
    · exact absurd hlabel (by decide)
    · exact absurd hlabel (hnames node (FlowGraph.target?_eq_some hn).1)
  obtain ⟨hpath, hscript⟩ := (harises.script_sees Engine.plain_modest).2 "a" _ ha
  exact ⟨context, harises, (hscript _ hseen).2 hlabels,
    (hpath none "output" (by decide) (by decide) (by decide)).1⟩

/-- Under the id of the second node a script sees the first one. -/
theorem second_hidden :
    ¬ ∀ (engine : Engine) (graph : FlowGraph) (executionId : String) (payload : Entries Value)
      (context : Context), engine.Modest →
      Engine.Arises engine graph executionId payload context →
      ∀ key outcome seen, context.outcome? key = some outcome → context.ShowsScript seen →
        seen.get? key = some outcome.snapshot := by
  intro hall
  obtain ⟨context, harises, hseen, -, hlabel, hb⟩ := arises_both
  have hsame := hall Engine.plain flow "run" [] context Engine.plain_modest harises "b" _ _ hb hseen
  obtain ⟨walk, before, hreaches, hkept⟩ := harises.kept Engine.plain_modest
  have haliases : context.aliases = before.aliases := congrArg (·.2.1) hkept
  have hd : context.aliases.keys.Nodup :=
    haliases ▸ hreaches.nodup_aliases Engine.plain_modest
  have hsnapshots := (Context.sees_iff hd hb).mp hsame _ hlabel
  exact absurd hsnapshots (by decide)

end Shadow

end FlowEngine
