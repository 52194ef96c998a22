import RtpStreamer.Jitter.Proofs.PlayoutProofs

/-!
# The end of a stream

Once the stream has ended, each pull plays a frame until the frontier is passed; the map and the
frontier of the reference stay what the packets made of them. So what a drained run has played can be
read off the reference as it was before the end.
-/

namespace RtpStreamer

variable {P : Platform}

/-- The reference after some calls. -/
def refRun (P : Platform) (options : Options) (calls : List Call) : Reference P :=
  (referenceSystem P options).run calls

theorem refRun_snoc (options : Options) (calls : List Call) (call : Call) :
    refRun P options (calls ++ [call]) = (refRun P options calls).next call :=
  DetSystem.run_snoc _ _ _

/-- The frames that a run returns are the playout of the map at its end. -/
theorem trace_frames (options : Options) (junk : Vector (Vector U8 kSlotPayloadBytes) kCapacity)
    (calls : List Call) :
    ((jitterSystem P options junk).trace calls).filterMap id =
      (playout P options (refRun P options calls).realFrames
        (refRun P options calls).cursor).frames := by
  have htrace := DetSystem.trace_eq_of_simulation (M := jitterSystem P options junk)
    (N := referenceSystem P options) (f := id) (R := JitterBuffer.Matches)
    (JitterBuffer.matches_fresh options junk) (fun _ _ call h => h.next call)
    (fun _ _ call h => h.returned call) calls
  rw [List.map_id] at htrace
  rw [htrace]
  exact (congrArg Playout.frames (Reference.played_run (P := P) options calls).playout_eq).symm

/-- A pull and the end of the stream leave the map, the origin and the frontier alone. -/
theorem next_of_not_push (r : Reference P) (call : Call)
    (h : ∀ packet arrival, call ≠ .push packet arrival) :
    (r.next call).started = r.started ∧ (r.next call).baseSequence = r.baseSequence ∧
      (r.next call).highest = r.highest ∧ (r.next call).accepted = r.accepted := by
  cases call with
  | push packet arrival => exact absurd rfl (h packet arrival)
  | pull now =>
    show (r.pull now).2.started = _ ∧ (r.pull now).2.baseSequence = _ ∧
      (r.pull now).2.highest = _ ∧ (r.pull now).2.accepted = _
    rcases r.pull_cases now with hp | ⟨_, _, hp⟩ | ⟨_, hp⟩ <;> rw [hp] <;>
      exact ⟨rfl, rfl, rfl, rfl⟩
  | markStreamEnded => exact ⟨rfl, rfl, rfl, rfl⟩

/-! ## The drain -/

/-- The calls that end a run: `mark_stream_ended`, and pulls. -/
def drain (nows : List U32) : List Call := .markStreamEnded :: nows.map .pull

theorem drain_snoc (nows : List U32) (now : U32) :
    drain (nows ++ [now]) = drain nows ++ [.pull now] := by
  simp [drain]

/-- Ending the stream and pulling changes neither the map nor the frontier. -/
theorem refRun_end (options : Options) (calls : List Call) (nows : List U32) :
    (refRun P options (calls ++ drain nows)).started =
        (refRun P options calls).started ∧
      (refRun P options (calls ++ drain nows)).highest =
        (refRun P options calls).highest ∧
      (refRun P options (calls ++ drain nows)).accepted =
        (refRun P options calls).accepted ∧
      (refRun P options (calls ++ drain nows)).ended = true := by
  induction nows using List.reverseRecOn with
  | nil =>
    rw [show drain [] = [.markStreamEnded] from rfl, refRun_snoc]
    exact ⟨rfl, rfl, rfl, rfl⟩
  | append_singleton nows now ih =>
    obtain ⟨hs, hh, ha, he⟩ := ih
    rw [drain_snoc, ← List.append_assoc, refRun_snoc]
    generalize refRun P options (calls ++ drain nows) = r at hs hh ha he ⊢
    obtain ⟨hs', _, hh', ha'⟩ := next_of_not_push r (.pull now) fun _ _ => by simp
    refine ⟨hs'.trans hs, hh'.trans hh, ha'.trans ha, ?_⟩
    show (r.pull now).2.ended = true
    rcases r.pull_cases now with hp | ⟨_, _, hp⟩ | ⟨_, hp⟩ <;> rw [hp] <;> exact he

/-- A pull that returns false after the end of the stream has played everything up to the frontier. -/
theorem cursor_of_drained {jb : JitterBuffer P} {r : Reference P} (h : JitterBuffer.Matches jb r)
    {now : U32} (hstarted : r.started = true) (hended : r.ended = true)
    (hdone : jb.returned (.pull now) = none) : (r.cursor : Int) = r.highest + 1 := by
  have hplayed := h.inv.played_le
  have hfalse : ¬ jb.isDue now = true := by
    intro hdue
    rcases jb.tryPullDueFrame_cases now with ⟨hno, _⟩ | ⟨_, _, hp⟩ | ⟨_, _, hp⟩
    · rw [hdue] at hno
      exact absurd hno (by decide)
    · exact absurd (hdone.symm.trans (congrArg Prod.fst hp)) (by simp)
    · exact absurd (hdone.symm.trans (congrArg Prod.fst hp)) (by simp)
  rw [JitterBuffer.isDue_iff, h.inv.cursor_eq, ← h.started, ← h.ended] at hfalse
  have hpast : ¬ (jb.framesPlayed.toNat : Int) ≤ jb.highestFrameIndexSeen :=
    fun hle => hfalse ⟨hstarted, hle, Or.inl hended⟩
  rw [h.cursor, h.highest]
  omega

/-- Each pull after the end of the stream plays a frame until the frontier is passed. -/
theorem drain_progress (options : Options) {calls : List Call} (nows : List U32)
    (hstarted : (refRun P options calls).started = true) :
    (refRun P options (calls ++ drain nows)).highest <
        (refRun P options (calls ++ drain nows)).cursor ∨
      nows.length ≤ (refRun P options (calls ++ drain nows)).cursor := by
  induction nows using List.reverseRecOn with
  | nil => exact Or.inr (Nat.zero_le _)
  | append_singleton nows now ih =>
    obtain ⟨hs, _, _, he⟩ := refRun_end (P := P) options calls nows
    rw [drain_snoc, ← List.append_assoc, refRun_snoc, List.length_append, List.length_singleton]
    generalize refRun P options (calls ++ drain nows) = r at ih hs he ⊢
    obtain ⟨_, _, hhighest, _⟩ := next_of_not_push r (.pull now) fun _ _ => by simp
    rw [hhighest]
    show _ < ((r.pull now).2.cursor : Int) ∨ _ ≤ (r.pull now).2.cursor
    rw [r.pull_cursor now]
    by_cases hdue : r.isDue now = true
    · rw [if_pos hdue]
      push_cast
      omega
    · -- nothing is due, so the frontier is passed
      rw [if_neg hdue]
      refine Or.inl (lt_of_not_ge fun hle => hdue ?_)
      simp [Reference.isDue, hs.trans hstarted, he, hle]

end RtpStreamer
