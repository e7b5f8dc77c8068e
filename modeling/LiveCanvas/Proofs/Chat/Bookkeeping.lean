import LiveCanvas.Proofs.Chat.Ending

/-!
# The turns of a run

The history of a run accounts for its turns.  Every turn that has begun has either ended, once, or
is in flight, and no two turns have the same number.  This holds for whatever order the answers
arrive in, since an answer ends one turn in flight and touches no other.
-/

namespace LiveCanvas

theorem filterMap_concat {α β : Type} (f : α → Option β) (entries : List α) (entry : α) :
    (entries ++ [entry]).filterMap f = entries.filterMap f ++ (f entry).toList := by
  rw [List.filterMap_append, List.filterMap_cons]
  cases f entry <;> rfl

namespace TurnEntry

/-- The turn that an entry is about. -/
def turn : TurnEntry → Turn
  | begun _ _ turn | ended _ turn _ => turn

/-- The entry tells of the beginning of a turn, and not of its end. -/
def isBeginning : TurnEntry → Bool
  | begun .. => true
  | ended .. => false

/-- The number and the turn that begins. -/
def begun? : TurnEntry → Option (Nat × Turn)
  | begun number _ turn => some (number, turn)
  | ended .. => none

/-- The number and the turn that ends. -/
def ended? : TurnEntry → Option (Nat × Turn)
  | begun .. => none
  | ended number turn _ => some (number, turn)

end TurnEntry

/-- The number and the turn that waits. -/
def OpenTurn.numbered (o : OpenTurn) : Nat × Turn :=
  (o.number, o.turn)

theorem runTurns_concat (g : Graph) (ids : IdSource) (events : List TurnEvent) (event : TurnEvent) :
    runTurns g ids (events ++ [event]) = (runTurns g ids events).next event := by
  simp [runTurns]

namespace TurnRun

/-- What an event comes to. -/
theorem next_cases (r : TurnRun) (event : TurnEvent) :
    (r.next event = r ∧
      ∀ a request, event = .ask a request → request.begin? a r.graph = none) ∨
    (∃ a request turn begun, event = .ask a request ∧
      request.begin? a r.graph = some (turn, begun) ∧
      r.next event = r.starting a request turn begun) ∨
    (∃ answer earlier o later, event = .answer o.number answer ∧
      r.inFlight = earlier ++ o :: later ∧
      r.inFlight.eraseP (·.number == o.number) = earlier ++ later ∧
      r.next event = r.ending o answer) := by
  cases event with
  | ask a request =>
      cases hbegin : request.begin? a r.graph with
      | none =>
          refine .inl ⟨by simp [next, hbegin], fun a' request' heq => ?_⟩
          cases heq
          exact hbegin
      | some pair =>
          exact .inr (.inl ⟨a, request, pair.1, pair.2, rfl, hbegin, by simp [next, hbegin]⟩)
  | answer number answer =>
      cases hfind : r.inFlight.find? (·.number == number) with
      | none => exact .inl ⟨by simp [next, hfind], fun a request heq => by cases heq⟩
      | some o =>
          obtain ⟨hnumber, earlier, later, hsplit, hbefore⟩ := List.find?_eq_some_iff_append.1 hfind
          obtain rfl : o.number = number := by simpa using hnumber
          refine .inr (.inr ⟨answer, earlier, o, later, rfl, hsplit, ?_, by simp [next, hfind]⟩)
          rw [hsplit, List.eraseP_append_right _ fun o ho => by simpa using hbefore o ho]
          simp

/-- A run whose ids are in order and whose history accounts for its turns. -/
structure Accounted (r : TurnRun) : Prop where
  nodup : (idsOf r.graph.nodes).Nodup
  fresh : r.ids.FreshFor r.graph
  numbers : (r.history.filterMap TurnEntry.begun?).map Prod.fst = List.range r.started
  /-- What has begun has ended or is in flight. -/
  balance : (r.history.filterMap TurnEntry.ended? ++ r.inFlight.map OpenTurn.numbered).Perm
    (r.history.filterMap TurnEntry.begun?)
  kinds : ∀ number request turn, .begun number request turn ∈ r.history → turn.kind = request.kind

namespace Accounted

variable {r : TurnRun}

theorem starting (h : r.Accounted) {a : Assistant} {request : TurnRequest} {turn : Turn}
    {begun : Graph} (hbegin : request.begin? a r.graph = some (turn, begun)) :
    (r.starting a request turn begun).Accounted := by
  obtain ⟨hkind, -, rfl⟩ := TurnRequest.begin?_eq_some hbegin
  have htold := request.advances_told h.nodup h.fresh
  constructor
  · exact htold.nodup_setLoadingAll turn.loading true
  · exact htold.fresh_setLoadingAll turn.loading true
  · show ((r.history ++ [_]).filterMap _).map _ = List.range (r.started + 1)
    rw [filterMap_concat, List.map_append, h.numbers, List.range_succ]
    rfl
  · show ((r.history ++ [_]).filterMap _ ++ (r.inFlight ++ [_]).map _).Perm
      ((r.history ++ [_]).filterMap _)
    rw [filterMap_concat, filterMap_concat, List.map_append, TurnEntry.ended?, Option.toList_none,
      List.append_nil, ← List.append_assoc]
    exact h.balance.append_right [(r.started, turn)]
  · intro number request' turn' hmem
    obtain hmem | hmem := List.mem_append.1 hmem
    · exact h.kinds number request' turn' hmem
    · cases List.mem_singleton.1 hmem
      exact hkind

theorem ending (h : r.Accounted) {o : OpenTurn} {earlier later : List OpenTurn}
    (hflight : r.inFlight = earlier ++ o :: later)
    (hrest : r.inFlight.eraseP (·.number == o.number) = earlier ++ later)
    (answer : Except ServiceError Reply) : (r.ending o answer).Accounted := by
  have happly := o.turn.advances_apply o.assistant h.nodup h.fresh answer
  constructor
  · exact happly.nodup_setLoadingAll o.turn.loading false
  · exact happly.fresh_setLoadingAll o.turn.loading false
  · show ((r.history ++ [_]).filterMap _).map _ = List.range r.started
    rw [filterMap_concat, TurnEntry.begun?, Option.toList_none, List.append_nil, h.numbers]
  · show ((r.history ++ [_]).filterMap _ ++ (r.inFlight.eraseP _).map _).Perm
      ((r.history ++ [_]).filterMap _)
    -- the turn goes over from those in flight to those that have ended
    have hbalance := h.balance
    rw [hflight, List.map_append, List.map_cons] at hbalance
    rw [filterMap_concat, filterMap_concat, hrest, List.map_append, TurnEntry.begun?,
      Option.toList_none, List.append_nil, List.append_assoc, TurnEntry.ended?,
      Option.toList_some, List.singleton_append]
    exact (List.perm_middle.symm.append_left _).trans hbalance
  · intro number request turn hmem
    obtain hmem | hmem := List.mem_append.1 hmem
    · exact h.kinds number request turn hmem
    · cases List.mem_singleton.1 hmem

theorem next (h : r.Accounted) (event : TurnEvent) : (r.next event).Accounted := by
  obtain ⟨hsame, -⟩ | ⟨a, request, turn, begun, -, hbegin, hnext⟩ |
    ⟨answer, earlier, o, later, -, hflight, hrest, hnext⟩ := r.next_cases event
  · exact hsame.symm ▸ h
  · exact hnext.symm ▸ h.starting hbegin
  · exact hnext.symm ▸ h.ending hflight hrest answer

/-- A turn in flight has begun. -/
theorem exists_begun (h : r.Accounted) {o : OpenTurn} (ho : o ∈ r.inFlight) :
    ∃ request, .begun o.number request o.turn ∈ r.history := by
  have hbegun : o.numbered ∈ r.history.filterMap TurnEntry.begun? :=
    h.balance.subset (List.mem_append_right _ (List.mem_map_of_mem ho))
  obtain ⟨entry, hentry, heq⟩ := List.mem_filterMap.1 hbegun
  cases entry with
  | begun number request turn =>
      cases heq
      exact ⟨request, hentry⟩
  | ended number turn outcome => cases heq

/-- No two turns have the same number, and none is told of both among those that have ended and
among those in flight. -/
theorem nodup_numbers (h : r.Accounted) :
    ((r.history.filterMap TurnEntry.ended? ++ r.inFlight.map OpenTurn.numbered).map
      Prod.fst).Nodup := by
  rw [(h.balance.map Prod.fst).nodup_iff, h.numbers]
  exact List.nodup_range

/-- A turn in flight has not ended. -/
theorem ended_notMem (h : r.Accounted) {o : OpenTurn} (ho : o ∈ r.inFlight) (turn : Turn)
    (outcome : TurnOutcome) : .ended o.number turn outcome ∉ r.history := by
  intro hended
  have hnodup := h.nodup_numbers
  rw [List.map_append, List.nodup_append] at hnodup
  refine hnodup.2.2 o.number ?_ o.number ?_ rfl
  · exact List.mem_map.2 ⟨(o.number, turn), List.mem_filterMap.2 ⟨_, hended, rfl⟩, rfl⟩
  · exact List.mem_map.2 ⟨o.numbered, List.mem_map_of_mem ho, rfl⟩

/-- An answer that arrives for a turn in flight ends that turn. -/
theorem next_answer (h : r.Accounted) {o : OpenTurn} (ho : o ∈ r.inFlight)
    (answer : Except ServiceError Reply) :
    r.next (.answer o.number answer) = r.ending o answer := by
  have hnodup := h.nodup_numbers
  rw [List.map_append, List.nodup_append, List.map_map] at hnodup
  have hfind : r.inFlight.find? (·.number == o.number) = some o := find?_of_nodup_map hnodup.2.1 ho
  simp only [TurnRun.next, hfind]

end Accounted
end TurnRun

theorem accounted_runTurns {g : Graph} {ids : IdSource} (hnodup : (idsOf g.nodes).Nodup)
    (hfresh : ids.FreshFor g) (events : List TurnEvent) : (runTurns g ids events).Accounted := by
  induction events using List.reverseRecOn with
  | nil => exact ⟨hnodup, hfresh, rfl, .nil, fun _ _ _ hmem => absurd hmem List.not_mem_nil⟩
  | append_singleton events event ih =>
      rw [runTurns_concat]
      exact ih.next event

end LiveCanvas
