import DurableGraph.Record.LogRecord

/-!
# Slots beside headers

A header and the slots of a log block stand in different words, so writing one leaves the
others as they are.

    decode (m.encode slot b) slot = .ok m
    decode (m.encode slot b) other = decode b other            for other ≠ slot
    decode (h.encode b) slot = decode b slot
-/

namespace DurableGraph

/-! ## Header -/

theorem LogHeader.word_encode (h : LogHeader) (b : Block) {j : Nat} (behind : 4 ≤ j) :
    (h.encode b).word j = b.word j := by
  unfold encode
  rw [Block.word_sealed, if_neg (by omega), Block.word_setWord_ne _ (by decide) _ (by omega),
    Block.word_setWord_ne _ (by decide) _ (by omega),
    Block.word_setWord_ne _ (by decide) _ (by omega)]

/-- A header that was read counts no more entries than there are slots. -/
theorem LogHeader.entryCount_le {buffer : Buffer} {h : LogHeader} (read : decode buffer = .ok h) :
    h.entryCount.toNat ≤ entriesPerBlock := by
  unfold decode at read
  cases hv : buffer.verify logBlockWords with
  | error e => simp [hv, bind, Except.bind] at read
  | ok _ =>
    simp only [hv, bind, Except.bind] at read
    split at read
    · cases read
    · split at read
      · cases read
      · simp only [Except.ok.injEq] at read
        subst read
        show (lowHalf _).toNat ≤ _
        omega

/-! ## Slots -/

namespace Mutation

/-- What stands in a slot is decided by its three words. -/
theorem decode_congr {a b : Buffer} {slot : Nat} (number : a.number = b.number)
    (first : a.content.word (slotWord slot) = b.content.word (slotWord slot))
    (second : a.content.word (slotWord slot + 1) = b.content.word (slotWord slot + 1))
    (third : a.content.word (slotWord slot + 2) = b.content.word (slotWord slot + 2)) :
    decode a slot = decode b slot := by
  simp only [decode, number, first, second, third]

theorem word_encode (m : Mutation) {slot : Nat} (h : slot < entriesPerBlock) (b : Block)
    (j : Nat) : (m.encode slot b).word j =
      if j = slotWord slot + 2 then m.b
      else if j = slotWord slot + 1 then m.a
      else if j = slotWord slot then wordOfHalves m.kind.code 0
      else b.word j := by
  have hlt := slotWord_lt h
  have hw : logBlockWords + 2 = wordsPerBlock := rfl
  unfold encode
  rw [Block.word_setWord _ (by omega), Block.word_setWord _ (by omega),
    Block.word_setWord _ (by omega)]

theorem word_encode_beside (m : Mutation) {slot : Nat} (h : slot < entriesPerBlock) (b : Block)
    {j : Nat} (beside : j < slotWord slot ∨ slotWord slot + 2 < j) :
    (m.encode slot b).word j = b.word j := by
  rw [word_encode m h, if_neg (by omega), if_neg (by omega), if_neg (by omega)]

theorem decode_encode (m : Mutation) {slot : Nat} (h : slot < entriesPerBlock) (number : Nat)
    (b : Block) : decode ⟨number, m.encode slot b⟩ slot = .ok m := by
  simp [decode, word_encode m h]

/-- Other slots keep their entries. -/
theorem decode_encode_ne (m : Mutation) {slot other : Nat} (h : slot < entriesPerBlock)
    (ne : other ≠ slot) (number : Nat) (b : Block) :
    decode ⟨number, m.encode slot b⟩ other = decode ⟨number, b⟩ other := by
  apply decode_congr
  · rfl
  all_goals exact word_encode_beside m h b (by unfold slotWord; omega)

/-- A header says nothing about the slots behind it. -/
theorem decode_header (h : LogHeader) (number : Nat) (b : Block) (slot : Nat) :
    decode ⟨number, h.encode b⟩ slot = decode ⟨number, b⟩ slot := by
  apply decode_congr
  · rfl
  all_goals exact h.word_encode b (by unfold slotWord; omega)

end Mutation

end DurableGraph
