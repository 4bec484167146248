import Custody.Proofs.CapturedCalls

/-!
# Calls that leave no bundle

Capturing a call can fail before the authority is asked, and then nothing has happened.  It can also
fail when the call is over, since the bundle is checked as it is sealed; what then breaks a rule is
a time that is not positive, and nothing else.  Such a call has been made and is not on record: the
clock is the one thing that is looked at too late.
-/

namespace Custody

theorem Bundle.ofParts_eq_error {hash : Hasher} {parts : Parts} {error : EvidenceError}
    (h : parts.error? = some error) : ofParts hash parts = .error error := by
  unfold ofParts
  split
  · next error' herror =>
    rw [h, Option.some.injEq] at herror
    rw [herror]
  · next hnone =>
    rw [h] at hnone
    cases hnone

namespace Request

variable {σ : Type} {r : Request} {settings : CaptureSettings} {readings : Readings}

/-- What is wrong with a bundle that was begun when the clock showed no positive time. -/
def clockError (readings : Readings) : EvidenceError :=
  if 0 < executedAt readings then
    .invalidTimestamp "context_snapshot.captured_at" readings.before
  else .invalidTimestamp "created_at" (executedAt readings)

/-- **Nothing but the clock is found wrong** with what is put on record for a request that is in
order. -/
theorem parts_error?_eq_clockError (hash : Hasher) (id : Identifier) (outcome : Outcome)
    (hr : r.Acceptable settings) (h : ¬0 < readings.before) :
    (r.parts hash settings readings id outcome).error? = some (clockError readings) := by
  let p := r.parts hash settings readings id outcome
  have hid : EvidenceError.ofText? "bundle_id" p.id = none :=
    EvidenceError.ofText?_eq_none_iff.mpr id.content
  have hversion : EvidenceError.ofText? "authority_version" p.authorityVersion = none :=
    EvidenceError.ofText?_eq_none_iff.mpr (isBlank_authorityVersion hr)
  have hcontext : p.context.error? =
      some (.invalidTimestamp "context_snapshot.captured_at" readings.before) := if_neg h
  show p.error? = _
  rw [Parts.error?, hid, hversion, hcontext, Option.none_or, Option.none_or, clockError]
  show (EvidenceError.ofTime? "created_at" (executedAt readings)).or _ = _
  by_cases hexecuted : 0 < executedAt readings
  · rw [EvidenceError.ofTime?_eq_none_iff.mpr hexecuted, if_pos hexecuted]
    rfl
  · rw [EvidenceError.ofTime?, if_neg hexecuted, if_neg hexecuted]
    rfl

/-- A call that was made before the clock showed a positive time is lost when it is over. -/
theorem capture_lost {authority : Authority σ} {s t : σ} {outcome : Outcome} (hash : Hasher)
    (id : Identifier) (archive : Archive) (hr : r.Acceptable settings)
    (h : ¬0 < readings.before)
    (hcall : authority.callFailClosed readings.raised r.call s = (outcome, t)) :
    r.capture hash settings authority readings id archive s =
      ((.error (clockError readings), archive), t) := by
  have hsealed : Bundle.ofParts hash (r.parts hash settings readings id outcome) =
      .error (clockError readings) :=
    Bundle.ofParts_eq_error (parts_error?_eq_clockError hash id outcome hr h)
  simp only [capture, error?_eq_none_iff.mpr hr, hcall, hsealed]

/-- **A call is lost to the clock alone.**  A request that is out of order is refused, and nothing
else happens.  Any other is put to the authority once.  If the clock showed a positive time before,
that leaves a bundle in the archive; if not, there is only an error about that time, and the archive
is as it was. -/
theorem capture_loses_to_clock_alone (hash : Hasher) (settings : CaptureSettings)
    (authority : Authority σ) (r : Request) (readings : Readings) (id : Identifier)
    (archive : Archive) (s : σ) :
    ∃ (result : Except EvidenceError Bundle) (archive' : Archive) (exchanges : List Exchange)
      (t : σ),
      Asks (fun _ authority s => r.capture hash settings authority readings id archive s)
        authority s (result, archive') exchanges t ∧
      ((¬r.Acceptable settings ∧ (∃ error, result = .error error) ∧ archive' = archive ∧
          exchanges = [] ∧ t = s) ∨
        (r.Acceptable settings ∧ exchanges = [⟨r.call, (authority r.call s).1⟩] ∧
          t = (authority r.call s).2 ∧
          ((0 < readings.before ∧ ∃ b, result = .ok b ∧ archive' = archive.store b ∧
              Evidence hash ⟨r, readings, id⟩ (authority r.call s).1 b) ∨
            (readings.before ≤ 0 ∧ result = .error (clockError readings) ∧
              archive' = archive)))) := by
  by_cases hr : r.Acceptable settings
  · let answer := (authority r.call s).1
    have hcall : authority.callFailClosed readings.raised r.call s =
        (.ofAnswer readings.raised answer, (authority r.call s).2) := rfl
    by_cases hclock : 0 < readings.before
    · obtain ⟨b, hb, hparts⟩ := Bundle.exists_ofParts hash
        (parts_error?_eq_none hash id (.ofAnswer readings.raised answer) hr hclock)
      refine ⟨.ok b, archive.store b, [⟨r.call, answer⟩], (authority r.call s).2, ⟨?_, ?_⟩, ?_⟩
      · exact capture_eq hr hcall hb archive
      · intro past
        exact capture_eq hr (authority.callFailClosed_observed readings.raised r.call s past) hb
          archive
      · have hevidence : Evidence hash ⟨r, readings, id⟩ answer b := evidence_of_ofParts hb hparts
        exact Or.inr ⟨hr, rfl, rfl, Or.inl ⟨hclock, b, rfl, rfl, hevidence⟩⟩
    · refine ⟨.error (clockError readings), archive, [⟨r.call, answer⟩], (authority r.call s).2,
        ⟨?_, ?_⟩, ?_⟩
      · exact capture_lost hash id archive hr hclock hcall
      · intro past
        exact capture_lost hash id archive hr hclock
          (authority.callFailClosed_observed readings.raised r.call s past)
      · exact Or.inr ⟨hr, rfl, rfl, Or.inr ⟨Int64.not_lt.mp hclock, rfl, rfl⟩⟩
  · obtain ⟨error, herror⟩ := exists_error_of_not_acceptable hr
    refine ⟨.error error, archive, [], s, ⟨?_, ?_⟩, ?_⟩
    · exact herror _ hash authority readings id archive s
    · intro past
      rw [List.append_nil]
      exact herror _ hash authority.observed readings id archive (s, past)
    · exact Or.inl ⟨hr, ⟨error, rfl⟩, rfl, rfl, rfl⟩

/-- **A call is lost** if the clock has not been set: the authority, which counts its calls, has
been asked, and there is an error and no bundle. -/
theorem unset_clock_loses_call :
    ∃ (hash : Hasher) (r : Request) (readings : Readings) (id : Identifier),
      r.Acceptable .default ∧ readings = ⟨0, 0, 5⟩ ∧
      r.capture hash .default (fun _ calls => (.ok (.success .empty "snap-1"), calls + 1)) readings
          id .empty 0 =
        ((.error (.invalidTimestamp "context_snapshot.captured_at" 0), .empty), 1) := by
  refine ⟨fun _ => ⟨List.replicate 32 0, rfl⟩, ⟨⟨"transfer", .empty⟩, none, none⟩, ⟨0, 0, 5⟩,
    ⟨"b-1", by decide⟩, ⟨by decide, by decide⟩, rfl, ?_⟩
  exact capture_lost _ _ _ ⟨by decide, by decide⟩ (by decide) rfl

end Request

end Custody
