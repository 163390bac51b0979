import Xgeny.Lib.HashChain
import Xgeny.Runs.AtMostOnce

set_option autoImplicit false

/-!
# Tamper evidence of the journal

An accepted journal is a hash chain whose head is the head digest of its state, so that the head
determines every record.

* `RecordDigestInjective`: the record digest does not collide;
* `replay_chain`: an accepted journal is a hash chain of records with their own digests;
* **`journal_tamper_evident`**: journals with one head are one journal.
-/

namespace Xgeny

open HashChain

variable {D : Digests} {records : List EventRecord} {state : RunState}

/-- The digest of a record of two journals determines its sequence number, its link and its event. -/
def RecordDigestInjective (D : Digests) (records other : List EventRecord) : Prop :=
  ∀ r ∈ records, ∀ q ∈ other, ∀ t,
    recordDigest D r.sequence r.previousDigest r.event = .ok t →
    recordDigest D q.sequence q.previousDigest q.event = .ok t →
    r.sequence = q.sequence ∧ r.previousDigest = q.previousDigest ∧ r.event = q.event

/-- A journal whose records are linked and carry their own digests, up to the head of a state. -/
structure ChainOf (D : Digests) (records : List EventRecord) (state : RunState) : Prop where
  chain : IsChain EventRecord.digest EventRecord.previousDigest records
  digests : ∀ r ∈ records, recordDigest D r.sequence r.previousDigest r.event = .ok r.digest
  head : head EventRecord.digest records = some state.journalHeadDigest

/-- **Every accepted journal is a hash chain.** -/
theorem replay_chain (h : replay D records = .ok state) : ChainOf D records state := by
  refine replay_induction ?_ ?_ h
  · intro record goal hcreates
    refine ⟨IsChain.snoc .nil hcreates.previous, fun r hr => ?_, rfl⟩
    rw [List.mem_singleton.mp hr]
    exact hcreates.digest
  · intro records s record next _ hI hfollows _
    refine ⟨hI.chain.snoc (hfollows.previous.trans hI.head.symm), fun r hr => ?_, head_snoc⟩
    rcases List.mem_append.mp hr with hr | hr
    · exact hI.digests r hr
    · rw [List.mem_singleton.mp hr]
      exact hfollows.digest

theorem eq_of_digest_eq {other : List EventRecord} (hinj : RecordDigestInjective D records other)
    {r q : EventRecord} (hmem : r ∈ records) (hother : q ∈ other)
    (hr : recordDigest D r.sequence r.previousDigest r.event = .ok r.digest)
    (hq : recordDigest D q.sequence q.previousDigest q.event = .ok q.digest)
    (heq : r.digest = q.digest) : r = q := by
  rw [heq] at hr
  obtain ⟨hsequence, hprevious, hevent⟩ := hinj r hmem q hother _ hr hq
  cases r
  cases q
  simp_all only

/-- **Tamper evidence of the journal.** When the digests of their records are injective, two accepted
journals end in the same head digest exactly when they are the same list of records: a journal with a
record altered, dropped, inserted or moved does not replay to the head of the original. -/
theorem journal_tamper_evident {other : List EventRecord} {state' : RunState}
    (hinj : RecordDigestInjective D records other) (h : replay D records = .ok state) (h' : replay D other = .ok state') :
    state.journalHeadDigest = state'.journalHeadDigest ↔ records = other := by
  have hchain := replay_chain h
  have hchain' := replay_chain h'
  constructor
  · intro hhead
    refine hchain.chain.eq_of_head hchain'.chain (fun r hr q hq => ?_) ?_
    · exact eq_of_digest_eq hinj hr hq (hchain.digests r hr) (hchain'.digests q hq)
    · rw [hchain.head, hchain'.head, hhead]
  · rintro rfl
    exact Option.some.inj (hchain.head.symm.trans hchain'.head)

theorem sampleTable_injective (records other : List EventRecord) :
    RecordDigestInjective (tableDigests sampleTable) records other := by
  intro r _ q _ t h h'
  simp only [recordDigest, Digests.digest_eq_ok, sha256Digest] at h h'
  obtain ⟨c, hc, rfl⟩ := h
  obtain ⟨d, hd, heq⟩ := h'
  have hhash : c.sha256.val = d.sha256.val := (String.append_right_inj _).mp heq.symm
  have hsame := tableDigests_injective (by decide +kernel) hc hd hhash
  simpa using hsame

/-- The sample journal without its last record has another head. -/
theorem journal_tamper_evident_sample : ∃ state state',
    replay (tableDigests sampleTable) sampleJournal = .ok state ∧
      replay (tableDigests sampleTable) sampleJournal.dropLast = .ok state' ∧
      state.journalHeadDigest ≠ state'.journalHeadDigest := by
  obtain ⟨state, hstate⟩ := sampleJournal_replays
  have hlonger := hstate
  rw [← List.dropLast_append_getLast (l := sampleJournal) (by decide)] at hlonger
  obtain ⟨state', hstate', _⟩ := replay_snoc (by decide) hlonger
  refine ⟨state, state', hstate, hstate', ?_⟩
  rw [ne_eq, journal_tamper_evident (sampleTable_injective _ _) hstate hstate']
  decide

end Xgeny
