import DurableGraph.Proofs.Store.Serving
import DurableGraph.Proofs.Record.Damage

/-!
# Damaged logs

Opening reads every block of the segment, an empty tail among them, and looks at the seal of
each.  So it finds out that the log is damaged as soon as the damage of one block lies within
one word.

    block 0, bytes 0 to 24                      under the seal of the superblock
    a block of the segment, bytes 0 to 4088     under the seal of that block
-/

namespace DurableGraph

/-- An image with a damaged log: some bytes are not what they were, all of them under the seal of
the superblock or of a block of the segment, and those of one block in one of its words. -/
structure Image.DamagedLog (image altered : Image) (segment : Region) : Prop where
  size_eq : altered.size = image.size
  damaged : ∃ k, image.DiffersAt altered k
  covered : ∀ k, image.DiffersAt altered k → k < 24 ∨
    (segment.start ≤ k / blockSize ∧ k / blockSize < segment.stop ∧ k % blockSize < 4088)
  one_word : ∀ k l, image.DiffersAt altered k → image.DiffersAt altered l →
    k / blockSize = l / blockSize → k / 8 = l / 8

/-- Where a byte differs, its block differs in the word of that byte and in no other. -/
theorem Image.DamagedLog.differsIn {image altered : Image} {segment : Region}
    (h : image.DamagedLog altered segment) {k : Nat} (differs : image.DiffersAt altered k)
    (inside : k / blockSize < image.blockCount) :
    ∃ a b, image.block? (k / blockSize) = some a ∧ altered.block? (k / blockSize) = some b ∧
      a.DiffersIn b (k % blockSize / 8) := by
  have hcount : altered.blockCount = image.blockCount := by
    unfold blockCount
    rw [h.size_eq]
  obtain ⟨a, held⟩ := Option.isSome_iff_exists.1 ((image.block?_isSome_iff _).2 inside)
  rw [← hcount] at inside
  obtain ⟨b, held'⟩ := Option.isSome_iff_exists.1 ((altered.block?_isSome_iff _).2 inside)
  exact ⟨a, b, held, held', differs.differsIn h.size_eq held held' fun l differs' same =>
    h.one_word l k differs' differs same⟩

namespace Session

variable {s t : Session} {base base' : Graph} {older older' : List (List Mutation)}
  {last last' : List Mutation}

/-! ## What opening has read -/

/-- The header of every block of the segment. -/
theorem Agrees.decode_header (h : s.Agrees base older last) {n : Nat} (after : 0 < n)
    (before : n < older.length + 2) {content : Block} (held : s.image.block? n = some content) :
    ∃ header, LogHeader.decode ⟨n, content⟩ = .ok header := by
  obtain ⟨block, load, -⟩ := h.tells.segmentTells (n - 1) (by
    rw [List.length_append, List.length_singleton]
    omega)
  have place : s.store.log.region.start + 1 + (n - 1) = n := by
    rw [h.logRegion]
    show 0 + 1 + (n - 1) = n
    omega
  rw [place] at load
  obtain ⟨-, number, held', decoded, -⟩ := LogBlock.load_eq_ok_iff.1 load
  rw [held, Option.some_inj] at held'
  have hbuffer : block.buffer = ⟨n, content⟩ := by rw [← number, held']
  refine ⟨block.header, ?_⟩
  rw [← hbuffer]
  exact decoded

theorem Agrees.segment_eq (h : s.Agrees base older last) :
    s.store.stats.segment = ⟨1, older.length + 2⟩ := by
  show s.store.log.segment = _
  rw [h.tells.segment_eq, h.logRegion]
  simp only [Nat.zero_add]
  congr 1
  omega

/-- Stores with the same superblock have segments of the same length. -/
theorem Agrees.length_eq (h : s.Agrees base older last) (h' : t.Agrees base' older' last')
    (same : t.store.log.superblock = s.store.log.superblock) : older'.length = older.length := by
  have hsize := h.tells.size_eq
  have hsize' := h'.tells.size_eq
  rw [same] at hsize'
  omega

/-! ## Damage -/

/-- Where a store stands, the superblock is not damaged: its seal would be broken. -/
theorem Agrees.le_of_differsAt (h : s.Agrees base older last) (h' : t.Agrees base' older' last')
    (damage : s.image.DamagedLog t.image s.store.stats.segment) {k : Nat}
    (differs : s.image.DiffersAt t.image k) : 24 ≤ k := by
  apply Nat.le_of_not_lt
  intro first
  have zero : k / blockSize = 0 := Nat.div_eq_of_lt (Nat.lt_trans first (by decide))
  have henough := h.enough
  rw [h.count] at henough
  obtain ⟨a, b, held, held', word⟩ := damage.differsIn differs (by omega)
  rw [zero] at held held'
  have broken : LogSuperblock.decode ⟨0, b⟩ = .error _ :=
    LogSuperblock.decode_of_differsIn (h.decode_superblock held) word (by
      unfold superblockWords blockSize
      omega)
  rw [h'.decode_superblock held'] at broken
  cases broken

/-- No block of the segment is damaged, if the superblock still says that it is one. -/
theorem Agrees.lt_of_differsAt (h : s.Agrees base older last) (h' : t.Agrees base' older' last')
    (damage : s.image.DamagedLog t.image s.store.stats.segment)
    (same : t.store.log.superblock = s.store.log.superblock) {k : Nat}
    (differs : s.image.DiffersAt t.image k) : k < 24 := by
  apply Nat.lt_of_not_le
  intro later
  have covered := damage.covered k differs
  rw [h.segment_eq] at covered
  obtain ⟨start, stop, under⟩ :
      1 ≤ k / blockSize ∧ k / blockSize < older.length + 2 ∧ k % blockSize < 4088 := by
    rcases covered with first | covered
    · omega
    · exact covered
  have hfits := h.tells.fits
  have hinside := h.tells.placed.inside
  rw [h.logRegion] at hfits hinside
  obtain ⟨a, b, held, held', word⟩ := damage.differsIn differs (by simp only at hfits hinside; omega)
  obtain ⟨header, decoded⟩ := h.decode_header start stop held
  obtain ⟨header', decoded'⟩ := h'.decode_header start (by rw [h.length_eq h' same]; exact stop) held'
  have broken : LogHeader.decode ⟨k / blockSize, b⟩ = .error _ :=
    LogHeader.decode_of_differsIn decoded word (by
      unfold logBlockWords
      omega)
  rw [decoded'] at broken
  cases broken

/-- **No store stands on an image with a damaged log.** -/
theorem Agrees.not_damagedLog (h : s.Agrees base older last) (h' : t.Agrees base' older' last') :
    ¬ s.image.DamagedLog t.image s.store.stats.segment := by
  intro damage
  have behind {k : Nat} (differs : s.image.DiffersAt t.image k) : 24 ≤ k :=
    h.le_of_differsAt h' damage differs
  -- so the superblock is the one that stood there
  have zero : t.image.block? 0 = s.image.block? 0 := by
    apply Image.block?_of_not_differsAt damage.size_eq
    intro k differs
    have later := behind differs
    rcases damage.covered k differs with first | ⟨start, -, -⟩
    · omega
    · rw [h.segment_eq] at start
      exact Nat.ne_of_gt start
  have same : t.store.log.superblock = s.store.log.superblock := by
    have henough := h.enough
    rw [h.count] at henough
    obtain ⟨content, held⟩ := Option.isSome_iff_exists.1
      ((s.image.block?_isSome_iff 0).2 (by omega))
    have decoded := h'.decode_superblock (zero.trans held)
    rw [h.decode_superblock held] at decoded
    exact (Except.ok.inj decoded).symm
  obtain ⟨k, differs⟩ := damage.damaged
  have := h.lt_of_differsAt h' damage same differs
  have := behind differs
  omega

end Session

/-! ## Top theorem -/

/-- **Damage to the log is never accepted.**  Where a store was opened without a format, the bytes
under the seals of its log are damaged, in each block within one word.  Then opening the image
again without a format fails. -/
theorem refused_of_damagedLog {settings : Settings} {image altered : Image} {s : Session}
    (opened : Session.ofImage? settings image = some s) (kept : settings.format = false)
    (damage : image.DamagedLog altered s.store.stats.segment) {again : Settings}
    (kept' : again.format = false) :
    ∃ e, (Store.openFile again (.ok altered) ()).result = .error e := by
  obtain ⟨himage, base, older, last, agrees⟩ := Session.agrees_of_ofImage?_recover opened kept
  rw [← Session.ofImage?_eq_none_iff, Option.eq_none_iff_forall_ne_some]
  intro t opened'
  obtain ⟨himage', base', older', last', agrees'⟩ :=
    Session.agrees_of_ofImage?_recover opened' kept'
  rw [← himage, ← himage'] at damage
  exact agrees.not_damagedLog agrees' damage

/-- The image with one byte counted up. -/
def Image.bumped (image : Image) (k : Nat) : Image := ⟨image.bytes.set! k (image.bytes[k]! + 1)⟩

/-- That is damage where the byte is one under the seal of a block of the segment. -/
theorem Image.damagedLog_bumped {image : Image} {segment : Region} {k : Nat}
    (inside : k < image.size) (start : segment.start ≤ k / blockSize)
    (stop : k / blockSize < segment.stop) (under : k % blockSize < 4088) :
    image.DamagedLog (image.bumped k) segment := by
  have only {l : Nat} (differs : image.DiffersAt (image.bumped k) l) : l = k := by
    apply Classical.byContradiction
    intro other
    exact differs (ByteArray.getElem!_set!_ne _ _ _ _ (Ne.symm other))
  exact {
    size_eq := ByteArray.size_set! _ _ _
    damaged := by
      refine ⟨k, ?_⟩
      show (image.bytes.set! k (image.bytes[k]! + 1))[k]! ≠ image.bytes[k]!
      rw [ByteArray.getElem!_set!_self _ _ _ inside]
      simp
    covered := by
      intro l differs
      rw [only differs]
      exact .inr ⟨start, stop, under⟩
    one_word := by
      intro l l' differs differs' _
      rw [only differs, only differs'] }

/-- A log with one entry, and the lowest byte of its first block changed. -/
theorem refused_of_damagedLog_reused :
    ∃ (s : Session) (altered : Image) (again : Settings),
      Session.ofImage? again s.image = some s ∧ again.format = false ∧
      (Store.snapshot s.store).result = .ok ((∅ : Graph).after (.addNode 8)) ∧
      s.image.DamagedLog altered s.store.stats.segment ∧
      ∃ e, (Store.openFile again (.ok altered) ()).result = .error e := by
  obtain ⟨s, -, h, -⟩ := Session.exists_ofImage?_reused
  obtain ⟨⟨older, last, agrees⟩, graph, -⟩ := h.mutation_of_append
    (h.tells.append_eq_ok (Nat.zero_lt_succ _) (.addNode 8))
  rw [show s.store.graph = ∅ from h.graph] at graph
  generalize s.serve (.mutation (.addNode 8)) = t at agrees graph
  have shown := (Store.gives_snapshot agrees.running).result_eq
  rw [graph] at shown
  have same : (Settings.forDevice t.store.device.path).device = t.store.device.path := rfl
  have opened := agrees.reopen same rfl
  have inside : 4096 < t.image.size := by
    have henough := agrees.enough
    rw [agrees.count] at henough
    unfold Image.blockCount blockSize at henough
    omega
  -- the byte belongs to block 1, where the segment starts
  have first : 4096 / blockSize = 1 := by decide
  have damage : t.image.DamagedLog (t.image.bumped 4096) t.store.stats.segment := by
    rw [agrees.segment_eq]
    refine Image.damagedLog_bumped inside (Nat.le_of_eq first.symm) ?_ (by decide)
    show 4096 / blockSize < older.length + 2
    omega
  exact ⟨t, _, _, opened, rfl, shown, damage, refused_of_damagedLog opened rfl damage rfl⟩

end DurableGraph
