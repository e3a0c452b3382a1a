import Mathlib.Order.Filter.AtTopBot.Basic
import VoipBill.Lib.Reachability
import VoipBill.Model.RadiusAuthProcessor

/-!
# Does a route table have an answer?

`processRouteTable` calls itself for every route that leads to another table.
Nothing in it bounds the depth: a table that is evaluated in the course of its
own evaluation is evaluated for ever.

* `Falls`: the table ends without an outcome, so that the routes behind it are
  tried;
* `Enters`: the evaluation of one table calls for the other one;
* `processRouteTable_answers_iff`: there is an answer exactly if no cycle of such
  calls is reached.
-/

namespace VoipBill
namespace RadiusAuthProcessor

open Filter Lib Relation

variable {p : RadiusAuthProcessor}

/-- The evaluation of a table comes to an end. -/
def Answers (p : RadiusAuthProcessor) (routeTableId : Int) (server : Server) : Prop :=
  ∃ depth answer, p.processRouteTable depth routeTableId server = some answer

/-! ## The calls of a table -/

/-- The table exists, and each of its routes is skipped or leads to a table of the
same kind. -/
inductive Falls (p : RadiusAuthProcessor) : Int → Prop where
  | intro {routeTable : RouteTable} (routeTableId : Int)
      (hfind : p.tables.getRouteTable routeTableId = some routeTable)
      (hroutes : ∀ route ∈ p.tables.getAllRouteTableRoutes routeTable.id,
        p.routeStep route = .ok .skip ∨ ∃ next, p.routeStep route = .ok (.table next))
      (hnext : ∀ route ∈ p.tables.getAllRouteTableRoutes routeTable.id,
        ∀ next, p.routeStep route = .ok (.table next) → Falls p next) :
      Falls p routeTableId

/-- The loop goes on behind the route. -/
def Passes (p : RadiusAuthProcessor) (route : RouteTableRoute) : Prop :=
  p.routeStep route = .ok .skip ∨ ∃ next, p.routeStep route = .ok (.table next) ∧ Falls p next

/-- The loop over the routes of the first table reaches a route to the second
one. -/
def Enters (p : RadiusAuthProcessor) (routeTableId next : Int) : Prop :=
  ∃ routeTable earlier route later,
    p.tables.getRouteTable routeTableId = some routeTable ∧
      p.tables.getAllRouteTableRoutes routeTable.id = earlier ++ route :: later ∧
        (∀ route' ∈ earlier, Passes p route') ∧ p.routeStep route = .ok (.table next)

theorem falls_of_passes {routeTableId : Int} {routeTable : RouteTable}
    (hfind : p.tables.getRouteTable routeTableId = some routeTable)
    (h : ∀ route ∈ p.tables.getAllRouteTableRoutes routeTable.id, Passes p route) :
    Falls p routeTableId := by
  refine .intro routeTableId hfind (fun route hroute => ?_) fun route hroute next hnext => ?_
  · exact (h route hroute).imp_right fun ⟨next, hstep, _⟩ => ⟨next, hstep⟩
  · rcases h route hroute with hskip | ⟨next', hstep, hfalls⟩
    · rw [hskip] at hnext
      exact absurd hnext (by simp)
    · rw [hstep] at hnext
      cases hnext
      exact hfalls

/-! ## More depth does no harm -/

section Depth

variable {evaluate evaluate' : Int → Server → Option RouteAnswer}

theorem processRoutes_mono
    (h : ∀ id server answer, evaluate id server = some answer →
      evaluate' id server = some answer)
    (routes : List RouteTableRoute) (server : Server) (answer : RouteAnswer)
    (heval : p.processRoutes evaluate routes server = some answer) :
    p.processRoutes evaluate' routes server = some answer := by
  induction routes generalizing server with
  | nil => exact heval
  | cons route routes ih =>
      rw [processRoutes] at heval ⊢
      cases hstep : p.routeStep route with
      | error message =>
          rw [hstep] at heval
          exact heval
      | ok step =>
          rw [hstep] at heval
          cases step with
          | skip => exact ih server heval
          | outcome outcomeId => exact heval
          | table next =>
              cases hnext : evaluate next server with
              | none =>
                  simp only [hnext] at heval
                  exact absurd heval (by simp)
              | some found =>
                  simp only [hnext] at heval
                  simp only [h next server found hnext]
                  obtain ⟨value, server'⟩ := found
                  cases value with
                  | error message => exact heval
                  | ok outcomeId =>
                      by_cases hzero : outcomeId ≠ 0
                      · simp only [if_pos hzero] at heval ⊢
                        exact heval
                      · simp only [if_neg hzero] at heval ⊢
                        exact ih server' heval

theorem processRouteTable_succ (depth : Nat) (routeTableId : Int) (server : Server)
    (answer : RouteAnswer)
    (h : p.processRouteTable depth routeTableId server = some answer) :
    p.processRouteTable (depth + 1) routeTableId server = some answer := by
  induction depth generalizing routeTableId server answer with
  | zero => exact absurd h (by simp [processRouteTable])
  | succ depth ih =>
      rw [processRouteTable] at h ⊢
      cases hfind : p.tables.getRouteTable routeTableId with
      | none =>
          rw [hfind] at h
          exact h
      | some routeTable =>
          rw [hfind] at h
          exact processRoutes_mono ih _ _ _ h

theorem processRouteTable_mono {depth depth' : Nat} (hle : depth ≤ depth')
    {routeTableId : Int} {server : Server} {answer : RouteAnswer}
    (h : p.processRouteTable depth routeTableId server = some answer) :
    p.processRouteTable depth' routeTableId server = some answer := by
  induction hle with
  | refl => exact h
  | step _ ih => exact processRouteTable_succ _ _ _ _ ih

/-- Two depths that are enough give the same answer. -/
theorem processRouteTable_unique {depth depth' : Nat} {routeTableId : Int} {server : Server}
    {answer answer' : RouteAnswer}
    (h : p.processRouteTable depth routeTableId server = some answer)
    (h' : p.processRouteTable depth' routeTableId server = some answer') : answer = answer' := by
  have hmax := processRouteTable_mono (le_max_left depth depth') h
  have hmax' := processRouteTable_mono (le_max_right depth depth') h'
  exact Option.some.inj (hmax.symm.trans hmax')

/-! ## The loop over the routes -/

theorem routeStep_eq_ok {route : RouteTableRoute} {step : RouteStep}
    (h : p.routeStep route = .ok step) : step = .skip ∨ step = p.routeTarget route := by
  unfold routeStep at h
  cases hA : p.admits route.aNumberId p.aNumber with
  | error message =>
      rw [hA] at h
      exact absurd h (by simp [Bind.bind, Except.bind])
  | ok admitsA =>
      cases hB : p.admits route.bNumberId p.bNumber with
      | error message =>
          rw [hA, hB] at h
          cases admitsA with
          | false => exact .inl (Except.ok.inj h).symm
          | true => exact absurd h (by simp [Bind.bind, Except.bind])
      | ok admitsB =>
          rw [hA, hB] at h
          cases admitsA with
          | false => exact .inl (Except.ok.inj h).symm
          | true =>
              cases admitsB with
              | false => exact .inl (Except.ok.inj h).symm
              | true => exact .inr (Except.ok.inj h).symm

theorem outcome_ne_zero {route : RouteTableRoute} {outcomeId : Int}
    (h : p.routeStep route = .ok (.outcome outcomeId)) : outcomeId ≠ 0 := by
  rcases routeStep_eq_ok h with hskip | htarget
  · exact absurd hskip (by simp)
  · unfold routeTarget at htarget
    split at htarget
    case isTrue hne =>
      split at htarget
      · exact absurd htarget (by simp)
      · rw [RouteStep.outcome.inj htarget]
        exact hne
    case isFalse =>
      split at htarget
      · exact absurd htarget (by simp)
      · exact absurd htarget (by simp)

/-- Routes that are skipped or have no outcome leave the answer to the rest. -/
theorem processRoutes_eq_nil {routes : List RouteTableRoute}
    (h : ∀ route ∈ routes, p.routeStep route = .ok .skip ∨
      ∃ next, p.routeStep route = .ok (.table next) ∧
        ∀ server, ∃ server', evaluate next server = some (.ok 0, server')) (server : Server) :
    ∃ server', p.processRoutes evaluate routes server = some (.ok 0, server') := by
  induction routes generalizing server with
  | nil => exact ⟨server, rfl⟩
  | cons route routes ih =>
      have hrest := ih fun route' hroute' => h route' (List.mem_cons_of_mem route hroute')
      rcases h route List.mem_cons_self with hskip | ⟨next, hstep, hnext⟩
      · obtain ⟨server', hserver'⟩ := hrest server
        exact ⟨server', by rw [processRoutes, hskip]; exact hserver'⟩
      · obtain ⟨middle, hmiddle⟩ := hnext server
        obtain ⟨server', hserver'⟩ := hrest middle
        refine ⟨server', ?_⟩
        simp only [processRoutes, hstep, hmiddle, ne_eq, not_true_eq_false, if_false]
        exact hserver'

/-- An answer of the whole loop behind routes that pass is an answer of the loop
over the rest. -/
theorem exists_rest_of_passes
    (hzero : ∀ next server answer, Falls p next → evaluate next server = some answer →
      answer.1 = .ok 0)
    {earlier rest : List RouteTableRoute} {server : Server} {answer : RouteAnswer}
    (hpass : ∀ route ∈ earlier, Passes p route)
    (h : p.processRoutes evaluate (earlier ++ rest) server = some answer) :
    ∃ server', p.processRoutes evaluate rest server' = some answer := by
  induction earlier generalizing server with
  | nil => exact ⟨server, h⟩
  | cons route earlier ih =>
      have hrest := fun route' hroute' => hpass route' (List.mem_cons_of_mem route hroute')
      rw [List.cons_append, processRoutes] at h
      rcases hpass route List.mem_cons_self with hskip | ⟨next, hstep, hfalls⟩
      · rw [hskip] at h
        exact ih hrest h
      · rw [hstep] at h
        cases hnext : evaluate next server with
        | none =>
            simp only [hnext] at h
            exact absurd h (by simp)
        | some found =>
            obtain ⟨value, server'⟩ := found
            have hvalue : value = .ok 0 := hzero next server _ hfalls hnext
            simp only [hnext, hvalue, ne_eq, not_true_eq_false, if_false] at h
            exact ih hrest h

/-- If the loop ends without an outcome, all its routes pass. -/
theorem passes_of_processRoutes
    (hzero : ∀ next server server', evaluate next server = some (.ok 0, server') → Falls p next)
    {routes : List RouteTableRoute} {server server' : Server}
    (h : p.processRoutes evaluate routes server = some (.ok 0, server')) :
    ∀ route ∈ routes, Passes p route := by
  induction routes generalizing server with
  | nil => exact fun _ hroute => absurd hroute (by simp)
  | cons route routes ih =>
      rw [processRoutes] at h
      cases hstep : p.routeStep route with
      | error message =>
          rw [hstep] at h
          exact absurd h (by simp)
      | ok step =>
          rw [hstep] at h
          cases step with
          | skip => exact List.forall_mem_cons.mpr ⟨.inl hstep, ih h⟩
          | outcome outcomeId =>
              simp only [Option.some.injEq, Prod.mk.injEq, Except.ok.injEq] at h
              exact absurd h.1 (outcome_ne_zero hstep)
          | table next =>
              cases hnext : evaluate next server with
              | none =>
                  simp only [hnext] at h
                  exact absurd h (by simp)
              | some found =>
                  obtain ⟨value, middle⟩ := found
                  cases value with
                  | error message =>
                      simp only [hnext] at h
                      exact absurd h (by simp)
                  | ok outcomeId =>
                      simp only [hnext] at h
                      -- a called table that has an outcome would have ended the loop
                      by_cases hne : outcomeId ≠ 0
                      · simp only [if_pos hne, Option.some.injEq, Prod.mk.injEq,
                          Except.ok.injEq] at h
                        exact absurd h.1 hne
                      · rw [if_neg hne] at h
                        rw [not_ne_iff.mp hne] at hnext
                        exact List.forall_mem_cons.mpr
                          ⟨.inr ⟨next, hstep, hzero next server middle hnext⟩, ih h⟩

end Depth

/-! ## Tables without an outcome -/

theorem falls_of_answer {depth : Nat} {routeTableId : Int} {server server' : Server}
    (h : p.processRouteTable depth routeTableId server = some (.ok 0, server')) :
    Falls p routeTableId := by
  induction depth generalizing routeTableId server server' with
  | zero => exact absurd h (by simp [processRouteTable])
  | succ depth ih =>
      rw [processRouteTable] at h
      cases hfind : p.tables.getRouteTable routeTableId with
      | none =>
          rw [hfind] at h
          exact absurd h (by simp)
      | some routeTable =>
          rw [hfind] at h
          exact falls_of_passes hfind (passes_of_processRoutes (fun _ _ _ => ih) h)

/-- A depth that is enough for every server. -/
theorem answer_of_falls {routeTableId : Int} (h : Falls p routeTableId) :
    ∃ depth, ∀ server, ∃ server',
      p.processRouteTable depth routeTableId server = some (.ok 0, server') := by
  induction h with
  | @intro routeTable routeTableId hfind hroutes _ ih =>
      -- The routes are finitely many, so that one depth serves them all.
      have hdepth : ∀ᶠ depth in atTop, ∀ route ∈ p.tables.getAllRouteTableRoutes routeTable.id,
          ∀ next, p.routeStep route = .ok (.table next) → ∀ server, ∃ server',
            p.processRouteTable depth next server = some (.ok 0, server') := by
        refine (eventually_all_finite (List.finite_toSet _)).mpr fun route hroute => ?_
        rcases hroutes route hroute with hskip | ⟨next, hstep⟩
        · refine Eventually.of_forall fun _ next hnext => ?_
          rw [hskip] at hnext
          exact absurd hnext (by simp)
        · obtain ⟨depth, hanswer⟩ := ih route hroute next hstep
          filter_upwards [eventually_ge_atTop depth] with depth' hle next' hnext server
          rw [hstep] at hnext
          cases hnext
          obtain ⟨server', hserver'⟩ := hanswer server
          exact ⟨server', processRouteTable_mono hle hserver'⟩
      obtain ⟨depth, hdepth⟩ := hdepth.exists
      refine ⟨depth + 1, fun server => ?_⟩
      rw [processRouteTable, hfind]
      refine processRoutes_eq_nil (fun route hroute => ?_) _
      exact (hroutes route hroute).imp_right fun ⟨next, hstep⟩ =>
        ⟨next, hstep, hdepth route hroute next hstep⟩

theorem answer_eq_zero_of_falls {depth : Nat} {routeTableId : Int} {server : Server}
    {answer : RouteAnswer} (hfalls : Falls p routeTableId)
    (h : p.processRouteTable depth routeTableId server = some answer) : answer.1 = .ok 0 := by
  obtain ⟨depth', hanswer⟩ := answer_of_falls hfalls
  obtain ⟨server', hserver'⟩ := hanswer server
  rw [processRouteTable_unique h hserver']

/-! ## Answers and cycles -/

/-- A call takes one from the depth. -/
theorem answer_of_enters {depth : Nat} {routeTableId next : Int} {server : Server}
    {answer : RouteAnswer} (henters : Enters p routeTableId next)
    (h : p.processRouteTable (depth + 1) routeTableId server = some answer) :
    ∃ server' answer', p.processRouteTable depth next server' = some answer' := by
  obtain ⟨routeTable, earlier, route, later, hfind, hroutes, hpass, hstep⟩ := henters
  rw [processRouteTable, hfind] at h
  simp only [hroutes] at h
  obtain ⟨server', hrest⟩ :=
    exists_rest_of_passes (fun _ _ _ => answer_eq_zero_of_falls) hpass h
  rw [processRoutes, hstep] at hrest
  cases hnext : p.processRouteTable depth next server' with
  | none =>
      simp only [hnext] at hrest
      exact absurd hrest (by simp)
  | some found => exact ⟨server', found, hnext⟩

theorem acc_of_answer {depth : Nat} {routeTableId : Int} {server : Server}
    {answer : RouteAnswer}
    (h : p.processRouteTable depth routeTableId server = some answer) :
    Acc (fun next id => Enters p id next) routeTableId := by
  induction depth generalizing routeTableId server answer with
  | zero => exact absurd h (by simp [processRouteTable])
  | succ depth ih =>
      refine ⟨_, fun next henters => ?_⟩
      obtain ⟨server', answer', hnext⟩ := answer_of_enters henters h
      exact ih hnext

/-- The loop over the last routes of a table has an answer if the calls of the
table have one. -/
theorem processRoutes_answers {routeTableId : Int} {routeTable : RouteTable}
    (hfind : p.tables.getRouteTable routeTableId = some routeTable)
    (hcalls : ∀ next, Enters p routeTableId next → ∀ server, Answers p next server)
    {earlier routes : List RouteTableRoute} (server : Server)
    (hroutes : p.tables.getAllRouteTableRoutes routeTable.id = earlier ++ routes)
    (hpass : ∀ route ∈ earlier, Passes p route) :
    ∃ depth answer, p.processRoutes (p.processRouteTable depth) routes server = some answer := by
  induction routes generalizing earlier server with
  | nil => exact ⟨0, _, rfl⟩
  | cons route routes ih =>
      have hroutes' : p.tables.getAllRouteTableRoutes routeTable.id =
          (earlier ++ [route]) ++ routes := by
        rw [hroutes, List.append_assoc, List.singleton_append]
      -- the routes before the next one lead to nothing as long as this one does
      have hpass' : Passes p route → ∀ route' ∈ earlier ++ [route], Passes p route' := by
        intro hroute route' hmem
        rcases List.mem_append.mp hmem with hmem | hmem
        · exact hpass route' hmem
        · rw [List.mem_singleton.mp hmem]
          exact hroute
      cases hstep : p.routeStep route with
      | error message => exact ⟨0, (.error message, server), by rw [processRoutes, hstep]⟩
      | ok step =>
          cases step with
          | skip =>
              obtain ⟨depth, answer, hrest⟩ := ih server hroutes' (hpass' (.inl hstep))
              exact ⟨depth, answer, by rw [processRoutes, hstep]; exact hrest⟩
          | outcome outcomeId =>
              exact ⟨0, (.ok outcomeId, server), by rw [processRoutes, hstep]⟩
          | table next =>
              obtain ⟨depth, ⟨value, middle⟩, hnext⟩ :=
                hcalls next ⟨routeTable, earlier, route, routes, hfind, hroutes, hpass, hstep⟩
                  server
              cases value with
              | error message =>
                  exact ⟨depth, (.error message, middle), by
                    simp only [processRoutes, hstep, hnext]⟩
              | ok outcomeId =>
                  by_cases hne : outcomeId ≠ 0
                  · exact ⟨depth, (.ok outcomeId, middle), by
                      simp only [processRoutes, hstep, hnext, if_pos hne]⟩
                  · -- The table has no outcome: the loop goes on, to a depth of its own.
                    have hzero : p.processRouteTable depth next server = some (.ok 0, middle) := by
                      rw [hnext, not_ne_iff.mp hne]
                    obtain ⟨depth', answer, hrest⟩ := ih middle hroutes'
                      (hpass' (.inr ⟨next, hstep, falls_of_answer hzero⟩))
                    refine ⟨max depth depth', answer, ?_⟩
                    have hcall := processRouteTable_mono (le_max_left depth depth') hzero
                    simp only [processRoutes, hstep, hcall, ne_eq, not_true_eq_false, if_false]
                    exact processRoutes_mono
                      (fun _ _ _ => processRouteTable_mono (le_max_right depth depth')) _ _ _ hrest

theorem answers_of_acc {routeTableId : Int}
    (h : Acc (fun next id => Enters p id next) routeTableId) (server : Server) :
    Answers p routeTableId server := by
  induction h generalizing server with
  | intro routeTableId _ ih =>
      cases hfind : p.tables.getRouteTable routeTableId with
      | none => exact ⟨1, _, by rw [processRouteTable, hfind]⟩
      | some routeTable =>
          obtain ⟨depth, answer, hrest⟩ := processRoutes_answers hfind
            (fun next henters => ih next henters) (p.changeRegion routeTable server)
            (List.nil_append _).symm fun _ hroute => absurd hroute (by simp)
          exact ⟨depth + 1, answer, by rw [processRouteTable, hfind]; exact hrest⟩

theorem mem_ids_of_enters {routeTableId next : Int} (h : Enters p routeTableId next) :
    routeTableId ∈ {id | id ∈ p.tables.routeTable.map (·.id)} := by
  obtain ⟨routeTable, _, _, _, hfind, _⟩ := h
  refine List.mem_map.mpr ⟨routeTable, List.mem_of_find?_eq_some hfind, ?_⟩
  exact RoutingTables.id_of_getRouteTable hfind

/-- The evaluation of a route table ends with an outcome, without one or with an
exception, exactly if following the calls from the table one does not come to a
table that calls itself again, at once or through others. -/
theorem processRouteTable_answers_iff (p : RadiusAuthProcessor) (routeTableId : Int)
    (server : Server) :
    Answers p routeTableId server ↔
      ¬∃ id, ReflTransGen (Enters p) routeTableId id ∧ TransGen (Enters p) id id := by
  constructor
  · rintro ⟨depth, answer, h⟩
    exact not_reachesCycle_of_acc (acc_of_answer h)
  · intro h
    have hfinite : {id | id ∈ p.tables.routeTable.map (·.id)}.Finite := List.finite_toSet _
    exact answers_of_acc
      (acc_of_not_reachesCycle hfinite (fun _ _ henters => mem_ids_of_enters henters) h) server

/-- A request whose only route table refers to itself. -/
def selfReference : RadiusAuthProcessor where
  repository := { data := {}, currentTime := 0 }
  tables :=
    { routeTable := [{ id := 1 }]
      routeTableRoute := [{ routeTableId := 1, outcomeRouteTableId := 1 }] }

/-- Table 1 is evaluated for ever. -/
theorem not_answers_selfReference : ¬Answers selfReference 1 {} := by
  rintro ⟨depth, answer, h⟩
  have henters : Enters selfReference 1 1 :=
    ⟨{ id := 1 }, [], { routeTableId := 1, outcomeRouteTableId := 1 }, [], rfl, rfl,
      fun _ hroute => absurd hroute (by simp), rfl⟩
  exact not_reachesCycle_of_acc (acc_of_answer h) ⟨1, .refl, .single henters⟩

end RadiusAuthProcessor
end VoipBill
