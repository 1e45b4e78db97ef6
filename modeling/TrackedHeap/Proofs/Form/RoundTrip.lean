import TrackedHeap.Proofs.Form.Stats

/-!
# Values go round through their texts

For every type whose values are both written and read: the text that a value is written as is read as the value
again, whatever its texts and sizes, and what was read from any text at all is the same after another round
(`forms_faithful`).
-/

namespace TrackedHeap

open Json (Faithful)

/-- Errors, blocks, carved ranges, figures of carvers and pools, modes of copying, ids and settings all go round. -/
theorem forms_faithful :
    Faithful MemoryError.reader MemoryError.toJson MemoryError.Words ∧
    Faithful Block.reader Block.toJson Block.Words ∧
    Faithful CarveOut.reader CarveOut.toJson CarveOut.Words ∧
    Faithful CarverStats.reader CarverStats.toJson CarverStats.Held ∧
    Faithful PoolStats.reader PoolStats.toJson PoolStats.Words ∧
    Faithful CopyMode.reader CopyMode.toJson CopyMode.Words ∧
    Faithful Json.Reader.word Json.natural (· < Word.limit) ∧
    Faithful Config.reader Config.toJson Config.Words :=
  ⟨MemoryError.faithful, Block.faithful, CarveOut.faithful, CarverStats.faithful, PoolStats.faithful,
    CopyMode.faithful, Json.faithful_word, Config.faithful⟩

/-- A text of quotes, control characters and a character of four bytes, and figures of a part that has a part. -/
theorem forms_faithful_nested :
    (MemoryError.illegalState "\"\\\x00\x1f\n😀").Words ∧
    Json.decode? MemoryError.reader (MemoryError.illegalState "\"\\\x00\x1f\n😀").toJson.render =
      some (.illegalState "\"\\\x00\x1f\n😀") ∧
    (CarverStats.ofParts [.ofParts [.ofTally .buddy 64 8 {}]]).Held ∧
    Json.decode? CarverStats.reader (CarverStats.ofParts [.ofParts [.ofTally .buddy 64 8 {}]]).toJson.render =
      some (.ofParts [.ofParts [.ofTally .buddy 64 8 {}]]) := by
  have hpart : (CarverStats.ofTally .buddy 64 8 {}).Words :=
    .intro (by decide) (by decide) (by decide) (by decide) (by decide) (by decide) fun _ h => by cases h
  have hparts : (CarverStats.ofParts [.ofTally .buddy 64 8 {}]).Words :=
    .intro (by decide) (by decide) (by decide) (by decide) (by decide) (by decide)
      (List.forall_mem_singleton.mpr hpart)
  have hwords : (CarverStats.ofParts [.ofParts [.ofTally .buddy 64 8 {}]]).Words :=
    .intro (by decide) (by decide) (by decide) (by decide) (by decide) (by decide)
      (List.forall_mem_singleton.mpr hparts)
  have hheld : (CarverStats.ofParts [.ofParts [.ofTally .buddy 64 8 {}]]).Held := by
    refine ⟨hwords, (CarverStats.depth_toJson_lt_iff _ 126).mpr (List.forall_mem_singleton.mpr ?_)⟩
    refine (CarverStats.depth_toJson_lt_iff _ 124).mpr (List.forall_mem_singleton.mpr ?_)
    exact (CarverStats.depth_toJson_lt_iff _ 122).mpr fun _ h => by cases h
  exact ⟨trivial, (forms_faithful.1.decode?_render _).mpr trivial, hheld,
    (forms_faithful.2.2.2.1.decode?_render _).mpr hheld⟩

end TrackedHeap
