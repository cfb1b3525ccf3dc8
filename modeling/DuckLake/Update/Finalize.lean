import DuckLake.Update.Sink

/-! `DuckLakeUpdate::Finalize`. Once the copy and the delete are finalized,
the files the copy wrote are read back through its source interface and sunk
into the insert, which is finalized last. The replay runs outside the
pipeline's scheduler, so a child result that would suspend it is meant to
raise. The loop tests the chunk's size before the source's result, so an empty
chunk ends the replay whatever the source said. -/
namespace DuckLake

/-- `SourceResultType`. -/
inductive SourceResultType where
  | haveMoreOutput
  | finished
  | blocked
  deriving DecidableEq, Repr

/-- `SinkResultType`. -/
inductive SinkResultType where
  | needMoreInput
  | finished
  | blocked
  deriving DecidableEq, Repr

/-- `SinkFinalizeType`. -/
inductive SinkFinalizeType where
  | ready
  | noOutputPossible
  | blocked
  deriving DecidableEq, Repr

/-- One pass of the replay loop: what `copy_op.GetData` raised or returned, the
chunk as it left it, and what `insert_op.Sink` raises or returns if the chunk
reaches it. -/
structure ReplayRound (α : Type) (k : Nat) where
  source : Except Exception SourceResultType
  chunk : DataChunk α k
  sink : Except Exception SinkResultType
  deriving DecidableEq

/-- The message of every check in `Finalize`. -/
def finalizeMessage : String :=
  "DuckLakeUpdate::Finalize does not support async child operators"

section

variable {α : Type} {k : Nat}

/-- The `while (true)` loop of `Finalize`: the chunks it sinks into the insert,
in order. Past the rounds given the source has nothing more, and its chunk is
empty. -/
def replay : List (ReplayRound α k) → Except Exception (List (DataChunk α k))
  | [] => .ok []
  | r :: rs => do
    let sourceResult ← r.source
    if r.chunk.size = 0 then pure []
    else if sourceResult = .blocked then throw (.internal finalizeMessage)
    else do
      let sinkResult ← r.sink
      if sinkResult = .blocked then throw (.internal finalizeMessage)
      else if sourceResult = .finished then pure [r.chunk]
      else (r.chunk :: ·) <$> replay rs

/-- A child's `Finalize` followed by the check on its result. -/
def checkReady (result : Except Exception SinkFinalizeType) : Except Exception Unit := do
  let result ← result
  if result ≠ .ready then throw (.internal finalizeMessage)

/-- `DuckLakeUpdate::Finalize`, given what the children's `Finalize` raise or
return, and whether building the copy's source states and the insert's sink
states raises: the chunks sunk into the insert before it is finalized. -/
def finalize (copyFinalize deleteFinalize : Except Exception SinkFinalizeType)
    (setup : Except Exception Unit) (rounds : List (ReplayRound α k))
    (insertFinalize : Except Exception SinkFinalizeType) : Except Exception (List (DataChunk α k)) := do
  checkReady copyFinalize
  checkReady deleteFinalize
  setup
  let sunk ← replay rounds
  checkReady insertFinalize
  return sunk

/-- The chunks the replay is meant to sink: every non-empty chunk the source
yields, up to and including its first `FINISHED`. -/
def chunksToFinished : List (ReplayRound α k) → List (DataChunk α k)
  | [] => []
  | r :: rs =>
    (if r.chunk.size = 0 then [] else [r.chunk]) ++
      if r.source = .ok .finished then [] else chunksToFinished rs

/-- Whether, up to its first `FINISHED`, the source fills every chunk and
neither child raises or blocks. -/
def synchronous : List (ReplayRound α k) → Bool
  | [] => true
  | r :: rs =>
    r.chunk.size ≠ 0 && (r.source = .ok .haveMoreOutput || r.source = .ok .finished) &&
      (r.sink = .ok .needMoreInput || r.sink = .ok .finished) &&
      (r.source = .ok .finished || synchronous rs)

/-- The replay, one round: what follows from what the round's children
returned. -/
theorem replay_cons (r : ReplayRound α k) (rs : List (ReplayRound α k)) :
    replay (r :: rs) =
      match r.source with
      | .error e => .error e
      | .ok sourceResult =>
        if r.chunk.size = 0 then .ok []
        else if sourceResult = .blocked then .error (.internal finalizeMessage)
        else match r.sink with
          | .error e => .error e
          | .ok sinkResult =>
            if sinkResult = .blocked then .error (.internal finalizeMessage)
            else if sourceResult = .finished then .ok [r.chunk]
            else (replay rs).map (r.chunk :: ·) := by
  rw [replay]
  rcases r.source with e | sourceResult
  · rfl
  simp only [bind, Except.bind]
  by_cases hsize : r.chunk.size = 0
  · simp only [if_pos hsize]; rfl
  simp only [if_neg hsize]
  by_cases hblocked : sourceResult = .blocked
  · simp only [if_pos hblocked]; rfl
  simp only [if_neg hblocked]
  rcases r.sink with e | sinkResult <;> rfl

/-- The replay reads another round after `r`: the source returned
`HAVE_MORE_OUTPUT` with a non-empty chunk, and the insert returned without
blocking. An insert that returns `FINISHED` is sunk into again. -/
def ReplayRound.Continues (r : ReplayRound α k) : Prop :=
  r.chunk.size ≠ 0 ∧ r.source = .ok .haveMoreOutput ∧ ∃ s, r.sink = .ok s ∧ s ≠ .blocked

/-- What the replay raises at round `r`, or `none`: what the source raised;
nothing once the chunk is empty; the message when the source blocked; what the
insert raised; the message when it blocked. -/
def ReplayRound.raised (r : ReplayRound α k) : Option Exception :=
  match r.source with
  | .error e => some e
  | .ok sourceResult =>
    if r.chunk.size = 0 then none
    else if sourceResult = .blocked then some (.internal finalizeMessage)
    else match r.sink with
      | .error e => some e
      | .ok sinkResult => if sinkResult = .blocked then some (.internal finalizeMessage) else none

/-- One round of the replay: it raises what the round raises; otherwise it
reads the next round when the round goes on, and else stops with the round's
chunk, if any. -/
theorem replay_cons_cases (r : ReplayRound α k) (rs : List (ReplayRound α k)) :
    (∃ e, r.raised = some e ∧ ¬r.Continues ∧ replay (r :: rs) = .error e) ∨
    (r.raised = none ∧ r.Continues ∧ replay (r :: rs) = (replay rs).map (r.chunk :: ·)) ∨
    (r.raised = none ∧ ¬r.Continues ∧
      replay (r :: rs) = .ok (if r.chunk.size = 0 then [] else [r.chunk])) := by
  rw [replay_cons]
  unfold ReplayRound.raised ReplayRound.Continues
  rcases r.source with e | sourceResult
  · simp
  by_cases hsize : r.chunk.size = 0
  · simp [hsize]
  rcases sourceResult with _ | _ | _ <;> rcases r.sink with e' | _ | _ | _ <;> simp [hsize]

/-- Whatever the children return, the replay sinks chunks the source yielded
before its first `FINISHED`, in order and each once: at worst it stops early. -/
theorem replay_prefix {rounds : List (ReplayRound α k)} {sunk : List (DataChunk α k)}
    (h : replay rounds = .ok sunk) : sunk <+: chunksToFinished rounds := by
  induction rounds generalizing sunk with
  | nil =>
    cases h
    exact List.nil_prefix
  | cons r rs ih =>
    rw [chunksToFinished]
    rcases replay_cons_cases r rs with ⟨e, -, -, hr⟩ | ⟨-, ⟨hsize, hmore, -⟩, hr⟩ | ⟨-, -, hr⟩
    · rw [hr] at h; cases h
    · rw [hr] at h
      cases hrs : replay rs with
      | error e => rw [hrs] at h; cases h
      | ok tail =>
        rw [hrs] at h
        cases h
        simpa [hsize, hmore] using ih hrs
    · rw [hr] at h
      cases h
      exact List.prefix_append _ _

theorem replay_prefix_three_rounds :
    replay [⟨.ok .haveMoreOutput, ⟨[[1], [2]], by decide, by decide, by decide⟩, .ok .needMoreInput⟩,
        ⟨.ok .haveMoreOutput, ⟨[], by decide, by decide, by decide⟩, .ok .needMoreInput⟩,
        ⟨.ok .finished, ⟨[[3]], by decide, by decide, by decide⟩, .ok .needMoreInput⟩] =
      .ok [(⟨[[1], [2]], by decide, by decide, by decide⟩ : DataChunk Nat 1)] ∧
    [(⟨[[1], [2]], by decide, by decide, by decide⟩ : DataChunk Nat 1)] <+:
      chunksToFinished
        [⟨.ok .haveMoreOutput, ⟨[[1], [2]], by decide, by decide, by decide⟩, .ok .needMoreInput⟩,
        ⟨.ok .haveMoreOutput, ⟨[], by decide, by decide, by decide⟩, .ok .needMoreInput⟩,
        ⟨.ok .finished, ⟨[[3]], by decide, by decide, by decide⟩, .ok .needMoreInput⟩] :=
  ⟨rfl, replay_prefix rfl⟩

/-- With a source that returns and fills every chunk and children that neither
raise nor block, the replay sinks exactly the chunks up to the source's first
`FINISHED`. -/
theorem replay_of_synchronous {rounds : List (ReplayRound α k)}
    (h : synchronous rounds = true) : replay rounds = .ok (chunksToFinished rounds) := by
  induction rounds with
  | nil => rfl
  | cons r rs ih =>
    simp only [synchronous, Bool.and_eq_true, Bool.or_eq_true, decide_eq_true_eq, ne_eq] at h
    obtain ⟨⟨⟨hsize, hsource⟩, hsink⟩, hrest⟩ := h
    obtain ⟨sinkResult, hsink', hsb⟩ : ∃ s, r.sink = .ok s ∧ s ≠ .blocked := by
      rcases hsink with h | h <;> exact ⟨_, h, nofun⟩
    rw [replay_cons, hsink']
    rcases hsource with hmore | hfin
    · have hne : r.source ≠ .ok .finished := by rw [hmore]; nofun
      simp only [hmore, hsize, hsb, if_false, reduceCtorEq, chunksToFinished, hne,
        ih (hrest.resolve_left hne), List.singleton_append]
      rfl
    · simp [hfin, hsize, hsb, chunksToFinished]

theorem replay_of_synchronous_two_rounds :
    synchronous
        [⟨.ok .haveMoreOutput, ⟨[[1], [2]], by decide, by decide, by decide⟩, .ok .needMoreInput⟩,
        (⟨.ok .finished, ⟨[[3]], by decide, by decide, by decide⟩, .ok .needMoreInput⟩ :
          ReplayRound Nat 1)] = true ∧
      replay
        [⟨.ok .haveMoreOutput, ⟨[[1], [2]], by decide, by decide, by decide⟩, .ok .needMoreInput⟩,
        (⟨.ok .finished, ⟨[[3]], by decide, by decide, by decide⟩, .ok .needMoreInput⟩ :
          ReplayRound Nat 1)] =
      .ok [⟨[[1], [2]], by decide, by decide, by decide⟩, ⟨[[3]], by decide, by decide, by decide⟩] :=
  ⟨rfl, replay_of_synchronous rfl⟩

/-! ### When `Finalize` raises -/

theorem except_map_eq_error {β γ : Type} {f : β → γ} {x : Except Exception β} {e : Exception} :
    x.map f = .error e ↔ x = .error e := by
  cases x <;> simp [Except.map]

theorem error_eq_error_iff_some {β : Type} (x e : Exception) :
    (.error x : Except Exception β) = .error e ↔ some x = some e :=
  ⟨fun h => by cases h; rfl, fun h => by cases h; rfl⟩

/-- The replay raises exactly at its first round that raises, when every round
before it goes on. -/
theorem replay_eq_error_iff (rounds : List (ReplayRound α k)) (e : Exception) :
    replay rounds = .error e ↔
      ∃ pre r post, rounds = pre ++ r :: post ∧ (∀ r' ∈ pre, r'.Continues) ∧ r.raised = some e := by
  induction rounds with
  | nil => exact iff_of_false (fun h => by cases h) (not_exists_prefix_nil _ _)
  | cons r rs ih =>
    rw [exists_prefix_cons_iff]
    rcases replay_cons_cases r rs with ⟨e', hr, hc, h⟩ | ⟨hr, hc, h⟩ | ⟨hr, hc, h⟩
    · rw [h, hr]
      exact (error_eq_error_iff_some e' e).trans ⟨.inl, fun h => h.elim id fun h' => absurd h'.1 hc⟩
    · rw [h, hr, except_map_eq_error, ih]
      simp only [hc, true_and, reduceCtorEq, false_or]
    · rw [h, hr]
      exact iff_of_false nofun fun h => h.elim nofun fun h' => hc h'.1

/-- `checkReady` raises what the child raised, or the message of `Finalize`
when the child returned anything but `READY`. -/
theorem checkReady_eq_error_iff (result : Except Exception SinkFinalizeType) (e : Exception) :
    checkReady result = .error e ↔
      result = .error e ∨ ∃ t, result = .ok t ∧ t ≠ .ready ∧ e = .internal finalizeMessage := by
  rw [checkReady, bind_eq_error]
  refine or_congr_right (exists_congr fun t => and_congr_right fun _ => ?_)
  by_cases ht : t = .ready
  · subst ht
    exact iff_of_false nofun fun h => h.1 rfl
  · show (if t ≠ .ready then _ else _) = _ ↔ _
    rw [if_pos ht]
    exact ⟨fun h => by cases h; exact ⟨ht, rfl⟩, fun ⟨_, h⟩ => h ▸ rfl⟩

/-- `Finalize` raises exactly what its first failing step raises: the copy's
`Finalize` and its check, the delete's, building the replay's states, the
replay, and the insert's `Finalize` and its check. A check raises what the
child raised, or the message of `Finalize` when the child returned anything but
`READY`, so a `Finalize` that says no output is possible raises as one that
blocks. The replay raises exactly at its first round that raises, after rounds
that each go on. -/
theorem finalize_eq_error_iff (copyFinalize deleteFinalize : Except Exception SinkFinalizeType)
    (setup : Except Exception Unit) (rounds : List (ReplayRound α k))
    (insertFinalize : Except Exception SinkFinalizeType) (e : Exception) :
    (finalize copyFinalize deleteFinalize setup rounds insertFinalize = .error e ↔
      ((raisedBy (checkReady copyFinalize)).or <| (raisedBy (checkReady deleteFinalize)).or <|
        (raisedBy setup).or <| (raisedBy (replay rounds)).or <|
          raisedBy (checkReady insertFinalize)) = some e) ∧
    (∀ result, checkReady result = .error e ↔
      result = .error e ∨ ∃ t, result = .ok t ∧ t ≠ .ready ∧ e = .internal finalizeMessage) ∧
    (replay rounds = .error e ↔
      ∃ pre r post, rounds = pre ++ r :: post ∧ (∀ r' ∈ pre, r'.Continues) ∧ r.raised = some e) := by
  refine ⟨?_, fun result => checkReady_eq_error_iff result e, replay_eq_error_iff rounds e⟩
  unfold finalize
  rcases checkReady copyFinalize with x | ⟨⟩
  · exact error_eq_error_iff_some x e
  rcases checkReady deleteFinalize with x | ⟨⟩
  · exact error_eq_error_iff_some x e
  rcases setup with x | ⟨⟩
  · exact error_eq_error_iff_some x e
  rcases replay rounds with x | sunk
  · exact error_eq_error_iff_some x e
  rcases checkReady insertFinalize with x | ⟨⟩
  · exact error_eq_error_iff_some x e
  exact iff_of_false nofun nofun

/-- An empty chunk ends the replay before the source's result is read. After a
`HAVE_MORE_OUTPUT` with an empty chunk the chunk the source still had is never
sunk, and a `BLOCKED` with an empty chunk ends the replay without raising; in
both cases the insert is then finalized. -/
theorem finalize_stops_at_empty_chunk :
    finalize (.ok .ready) (.ok .ready) (.ok ())
        [⟨.ok .haveMoreOutput, ⟨[], by decide, by decide, by decide⟩, .ok .needMoreInput⟩,
          (⟨.ok .finished, ⟨[[7]], by decide, by decide, by decide⟩, .ok .needMoreInput⟩ :
            ReplayRound Nat 1)]
        (.ok .ready) = .ok [] ∧
      chunksToFinished
        [⟨.ok .haveMoreOutput, ⟨[], by decide, by decide, by decide⟩, .ok .needMoreInput⟩,
          (⟨.ok .finished, ⟨[[7]], by decide, by decide, by decide⟩, .ok .needMoreInput⟩ :
            ReplayRound Nat 1)] =
        [⟨[[7]], by decide, by decide, by decide⟩] ∧
      finalize (.ok .ready) (.ok .ready) (.ok ())
        [⟨.ok .blocked, ⟨[], by decide, by decide, by decide⟩, .ok .needMoreInput⟩,
          (⟨.ok .finished, ⟨[[7]], by decide, by decide, by decide⟩, .ok .needMoreInput⟩ :
            ReplayRound Nat 1)]
        (.ok .ready) = .ok [] :=
  ⟨rfl, rfl, rfl⟩

end

end DuckLake
