import V6Emul.Requests.MemoryRequests

/-!
# The text of a memory dump

`GetMemString` puts its text together in a static buffer.  The column of the newline is
never written, so that a text ends behind its first line, and a request for no bytes
leaves what is at the start of the buffer.
-/

namespace V6Emul

namespace HexData

/-! ## Requests -/

structure Call where
  ram : Ram
  addr : Nat
  len : Nat
  len_le : len ≤ 255
  inside : addr + len ≤ memoryGlobalLen

def Call.bytes (call : Call) : List Byte := (indices call.addr call.len).map call.ram.read

@[simp] theorem Call.length_bytes (call : Call) : call.bytes.length = call.len := by
  simp [bytes, indices]

def step (buffer : HexData) (call : Call) : HexData :=
  buffer.putAll (min call.len bytesInLine) call.bytes

/-- The buffer after requests; it is zero at first. -/
def after (calls : List Call) : HexData := calls.foldl step fun _ => 0

def answer (calls : List Call) (call : Call) : List Byte := ((after calls).step call).text

theorem after_append (calls : List Call) (call : Call) :
    after (calls ++ [call]) = (after calls).step call :=
  List.foldl_append

/-! ## What the text is for -/

def newline : Byte := 10

def hexPair (c : Byte) : List Byte := [hexChar (c >>> 4), hexChar (c &&& 0x0F)]

def printable (c : Byte) : Byte := if 31 < c ∧ c < 127 then c else 46

def ShownIn (bytes line : List Byte) : Prop :=
  (bytes.flatMap hexPair ++ bytes.map printable).Sublist line

def Complete (bytes text : List Byte) : Prop :=
  ∀ k, k * bytesInLine < bytes.length → ∃ line, (text.splitOnP (· == newline))[k]? = some line ∧
    ShownIn ((bytes.drop (k * bytesInLine)).take bytesInLine) line

/-- The answer is that of a first request, and shows all bytes. -/
structure Right (calls : List Call) (call : Call) : Prop where
  stateless : answer calls call = answer [] call
  complete : Complete call.bytes (answer calls call)
  empty : call.len = 0 → answer calls call = []

/-! ## The buffer -/

theorem hexChar_range (digit : Byte) (h : digit < 16) :
    48 ≤ hexChar digit ∧ hexChar digit < 71 := by
  rw [hexChar]
  split <;> bv_omega

theorem high_lt (c : Byte) : c >>> 4 < 16 := by
  have hc := c.isLt
  rw [BitVec.lt_def, BitVec.toNat_ushiftRight, Nat.shiftRight_eq_div_pow]
  exact Nat.div_lt_of_lt_mul hc

theorem low_lt (c : Byte) : c &&& 0x0F < 16 := by
  rw [BitVec.lt_def, BitVec.toNat_and]
  exact Nat.lt_of_le_of_lt Nat.and_le_right (by decide)

theorem printable_range (c : Byte) : 31 < printable c ∧ printable c < 127 := by
  rw [printable]
  split
  · assumption
  · decide

def Shows (c : Byte) : Prop := c ≠ 0 ∧ c ≠ newline

theorem shows_hexChar {digit : Byte} (h : digit < 16) : Shows (hexChar digit) := by
  have hrange := hexChar_range digit h
  constructor
  · bv_omega
  · rw [newline]
    bv_omega

theorem shows_printable (c : Byte) : Shows (printable c) := by
  have hrange := printable_range c
  constructor
  · bv_omega
  · rw [newline]
    bv_omega

theorem shows_space : Shows 32 := ⟨by decide, by decide⟩

theorem put_apply (lineLen : Nat) (buffer : HexData) (offset : Nat) (c : Byte) (i : Nat) :
    put lineLen buffer offset c i =
      if i = charIdx lineLen offset then printable c
      else if offset % 16 = 0 ∧ i = 66 * (offset / 16) + 3 * lineLen then 32
      else if i = 66 * (offset / 16) + offset % 16 * 3 + 2 then 32
      else if i = 66 * (offset / 16) + offset % 16 * 3 + 1 then hexChar (c &&& 0x0F)
      else if i = 66 * (offset / 16) + offset % 16 * 3 then hexChar (c >>> 4)
      else buffer i := by
  have hx : offset % bytesInLine ≠ lineLenMax - 1 := by
    have hlt : offset % bytesInLine < bytesInLine := Nat.mod_lt _ (by decide)
    exact Nat.ne_of_lt (Nat.lt_trans hlt (by decide))
  have hlen : lineLenMax = 66 := by decide
  rw [put, if_neg hx, Function.update_apply, printable]
  by_cases hfirst : offset % 16 = 0 <;>
    simp [bytesInLine, hexLen, hlen, hfirst, Function.update_apply]

theorem put_cases (lineLen : Nat) (buffer : HexData) (offset : Nat) (c : Byte) (i : Nat) :
    put lineLen buffer offset c i = buffer i ∨ Shows (put lineLen buffer offset c i) := by
  rw [put_apply]
  split_ifs
  · exact .inr (shows_printable c)
  · exact .inr shows_space
  · exact .inr shows_space
  · exact .inr (shows_hexChar (low_lt c))
  · exact .inr (shows_hexChar (high_lt c))
  · exact .inl rfl

def putBytes (lineLen : Nat) (buffer : HexData) (bytes : List Byte) : HexData :=
  bytes.zipIdx.foldl (fun buffer e => put lineLen buffer e.2 e.1) buffer

theorem putBytes_append (lineLen : Nat) (buffer : HexData) (bytes : List Byte) (c : Byte) :
    putBytes lineLen buffer (bytes ++ [c]) =
      put lineLen (putBytes lineLen buffer bytes) bytes.length c := by
  simp [putBytes, List.zipIdx_append]

theorem putBytes_cases (lineLen : Nat) (buffer : HexData) (bytes : List Byte) (i : Nat) :
    putBytes lineLen buffer bytes i = buffer i ∨ Shows (putBytes lineLen buffer bytes i) := by
  induction bytes using List.reverseRecOn with
  | nil => exact .inl rfl
  | append_singleton bytes c ih =>
      rw [putBytes_append]
      rcases put_cases lineLen (putBytes lineLen buffer bytes) bytes.length c i with hput | hput
      · rw [hput]
        exact ih
      · exact .inr hput

def terminator (lineLen len : Nat) : Nat := (if len = 0 then 0 else charIdx lineLen (len - 1)) + 1

theorem putAll_eq (lineLen : Nat) (buffer : HexData) (bytes : List Byte) :
    putAll lineLen buffer bytes =
      Function.update (putBytes lineLen buffer bytes) (terminator lineLen bytes.length) 0 := by
  cases bytes <;> rfl

/-! ## No newline -/

def NoNewline (buffer : HexData) : Prop := ∀ i, buffer i ≠ newline

theorem NoNewline.step {buffer : HexData} (h : buffer.NoNewline) (call : Call) :
    (buffer.step call).NoNewline := by
  intro i
  rw [HexData.step, putAll_eq, Function.update_apply]
  split_ifs
  · decide
  · rcases putBytes_cases (min call.len bytesInLine) buffer call.bytes i with hsame | hshows
    · rw [hsame]
      exact h i
    · exact hshows.2

theorem noNewline_after (calls : List Call) : (after calls).NoNewline := by
  induction calls using List.reverseRecOn with
  | nil => exact fun _ => (by decide : (0 : Byte) ≠ newline)
  | append_singleton calls call ih =>
      rw [after_append]
      exact ih.step call

theorem lines_answer (calls : List Call) (call : Call) :
    (answer calls call).splitOnP (· == newline) = [answer calls call] := by
  apply List.splitOnP_eq_singleton
  intro c hc
  obtain ⟨i, -, rfl⟩ := List.mem_map.mp ((List.takeWhile_sublist _).subset hc)
  exact beq_eq_false_iff_ne.mpr ((noNewline_after calls).step call i)

theorem not_complete {calls : List Call} {call : Call} (h : bytesInLine < call.len) :
    ¬ Complete call.bytes (answer calls call) := by
  intro hcomplete
  obtain ⟨line, hline, -⟩ := hcomplete 1 (by simpa using h)
  rw [lines_answer] at hline
  cases hline

/-! ## No bytes -/

theorem text_eq_nil {buffer : HexData} : buffer.text = [] ↔ buffer 0 = 0 := by
  have hlen : hexDataLen = 1 + 1056 := by decide
  rw [text, hlen, Nat.add_comm, List.range_succ_eq_map, List.map_cons, List.takeWhile_cons]
  by_cases h : buffer 0 = 0 <;> simp [h]

theorem putBytes_zero {lineLen : Nat} (hline : lineLen ≠ 0) (buffer : HexData) {bytes : List Byte}
    (h : bytes ≠ []) : Shows (putBytes lineLen buffer bytes 0) := by
  induction bytes using List.reverseRecOn with
  | nil => exact absurd rfl h
  | append_singleton bytes c ih =>
      rw [putBytes_append]
      by_cases hfirst : bytes = []
      · subst hfirst
        have hplace : put lineLen (putBytes lineLen buffer []) 0 c 0 = hexChar (c >>> 4) := by
          rw [put_apply, if_neg, if_neg, if_neg, if_neg, if_pos rfl] <;>
            simp [charIdx, hline]
        exact hplace ▸ shows_hexChar (high_lt c)
      · rcases put_cases lineLen (putBytes lineLen buffer bytes) bytes.length c 0 with hput | hput
        · exact hput ▸ ih hfirst
        · exact hput

theorem step_zero (buffer : HexData) (call : Call) :
    buffer.step call 0 = 0 ↔ call.len = 0 ∧ buffer 0 = 0 := by
  have hend : 0 ≠ terminator (min call.len bytesInLine) call.bytes.length :=
    (Nat.succ_ne_zero _).symm
  rw [step, putAll_eq, Function.update_of_ne hend]
  by_cases hlen : call.len = 0
  · have hbytes : call.bytes = [] := List.eq_nil_of_length_eq_zero (by simpa using hlen)
    rw [hbytes]
    exact (and_iff_right hlen).symm
  · have hbytes : call.bytes ≠ [] := by
      intro heq
      have hlength := call.length_bytes
      rw [heq] at hlength
      exact hlen hlength.symm
    have hline : min call.len bytesInLine ≠ 0 := by
      rw [bytesInLine]
      omega
    exact iff_of_false (putBytes_zero hline buffer hbytes).1 fun h => hlen h.1

theorem after_zero (calls : List Call) : after calls 0 = 0 ↔ ∀ call ∈ calls, call.len = 0 := by
  induction calls using List.reverseRecOn with
  | nil => simp [after]
  | append_singleton calls call ih =>
      rw [after_append, step_zero, ih]
      simp [and_comm, or_imp, forall_and]

/-! ## One line -/

/-- The line of a text that has only one. -/
def line (bytes : List Byte) : List Byte :=
  (bytes.flatMap fun c => hexPair c ++ [32]) ++ 32 :: bytes.map printable

theorem shownIn_line (bytes : List Byte) : ShownIn bytes (line bytes) := by
  have hdigits : (bytes.flatMap hexPair).Sublist (bytes.flatMap fun c => hexPair c ++ [32]) := by
    induction bytes with
    | nil => exact .slnil
    | cons c bytes ih =>
        rw [List.flatMap_cons, List.flatMap_cons]
        exact (List.sublist_append_left _ _).append ih
  exact hdigits.append (List.sublist_cons_self _ _)

structure Written (lineLen : Nat) (bytes : List Byte) (buffer : HexData) : Prop where
  digits : ∀ i (h : i < bytes.length), buffer (3 * i) = hexChar (bytes[i] >>> 4) ∧
    buffer (3 * i + 1) = hexChar (bytes[i] &&& 0x0F) ∧ buffer (3 * i + 2) = 32
  gap : bytes ≠ [] → buffer (3 * lineLen) = 32
  chars : ∀ i (h : i < bytes.length), buffer (3 * lineLen + 1 + i) = printable bytes[i]

theorem put_first (lineLen : Nat) {n : Nat} (hn : n < bytesInLine) (buffer : HexData) (c : Byte)
    (i : Nat) :
    put lineLen buffer n c i =
      if i = 3 * lineLen + 1 + n then printable c
      else if n = 0 ∧ i = 3 * lineLen then 32
      else if i = 3 * n + 2 then 32
      else if i = 3 * n + 1 then hexChar (c &&& 0x0F)
      else if i = 3 * n then hexChar (c >>> 4)
      else buffer i := by
  have hrow : n / 16 = 0 ∧ n % 16 = n := by
    rw [bytesInLine] at hn
    omega
  have hchar : charIdx lineLen n = 3 * lineLen + 1 + n := by
    simp [charIdx, bytesInLine, hexLen, hrow.1, hrow.2]
  rw [put_apply, hchar, hrow.1, hrow.2, Nat.mul_comm n 3, Nat.mul_zero, Nat.zero_add, Nat.zero_add]

theorem Written.put {lineLen : Nat} {bytes : List Byte} {buffer : HexData}
    (h : Written lineLen bytes buffer) (hlen : bytes.length < lineLen)
    (hline : lineLen ≤ bytesInLine) (c : Byte) :
    Written lineLen (bytes ++ [c]) (put lineLen buffer bytes.length c) := by
  have hput := put_first lineLen (Nat.lt_of_lt_of_le hlen hline) buffer c
  constructor
  · intro i hi
    rw [List.length_append, List.length_singleton] at hi
    rcases Nat.lt_or_eq_of_le (Nat.le_of_lt_succ hi) with hlt | rfl
    · rw [List.getElem_append_left hlt]
      obtain ⟨hhigh, hlow, hspace⟩ := h.digits i hlt
      refine ⟨?_, ?_, ?_⟩
      · rw [hput, if_neg (by omega), if_neg (by omega), if_neg (by omega), if_neg (by omega),
          if_neg (by omega), hhigh]
      · rw [hput, if_neg (by omega), if_neg (by omega), if_neg (by omega), if_neg (by omega),
          if_neg (by omega), hlow]
      · rw [hput, if_neg (by omega), if_neg (by omega), if_neg (by omega), if_neg (by omega),
          if_neg (by omega), hspace]
    · rw [List.getElem_concat_length rfl]
      refine ⟨?_, ?_, ?_⟩
      · rw [hput, if_neg (by omega), if_neg (by omega), if_neg (by omega), if_neg (by omega),
          if_pos rfl]
      · rw [hput, if_neg (by omega), if_neg (by omega), if_neg (by omega), if_pos rfl]
      · rw [hput, if_neg (by omega), if_neg (by omega), if_pos rfl]
  · intro _
    rw [hput, if_neg (by omega)]
    by_cases hfirst : bytes.length = 0
    · rw [if_pos ⟨hfirst, rfl⟩]
    · rw [if_neg fun hboth => hfirst hboth.1, if_neg (by omega), if_neg (by omega),
        if_neg (by omega)]
      exact h.gap fun heq => hfirst (by rw [heq]; rfl)
  · intro i hi
    rw [List.length_append, List.length_singleton] at hi
    rcases Nat.lt_or_eq_of_le (Nat.le_of_lt_succ hi) with hlt | rfl
    · rw [List.getElem_append_left hlt, hput, if_neg (by omega), if_neg (by omega),
        if_neg (by omega), if_neg (by omega), if_neg (by omega)]
      exact h.chars i hlt
    · rw [List.getElem_concat_length rfl, hput, if_pos rfl]

theorem written_putBytes (buffer : HexData) {lineLen : Nat} {bytes : List Byte}
    (hlen : bytes.length ≤ lineLen) (hline : lineLen ≤ bytesInLine) :
    Written lineLen bytes (putBytes lineLen buffer bytes) := by
  induction bytes using List.reverseRecOn with
  | nil =>
      exact ⟨fun i hi => absurd hi (Nat.not_lt_zero i), fun h => absurd rfl h,
        fun i hi => absurd hi (Nat.not_lt_zero i)⟩
  | append_singleton bytes c ih =>
      rw [List.length_append, List.length_singleton] at hlen
      rw [putBytes_append]
      exact (ih (Nat.le_of_succ_le hlen)).put hlen hline c

theorem map_range_digits {bytes : List Byte} {buffer : HexData}
    (h : ∀ i (h : i < bytes.length), buffer (3 * i) = hexChar (bytes[i] >>> 4) ∧
      buffer (3 * i + 1) = hexChar (bytes[i] &&& 0x0F) ∧ buffer (3 * i + 2) = 32) :
    (List.range (3 * bytes.length)).map buffer = bytes.flatMap fun c => hexPair c ++ [32] := by
  induction bytes using List.reverseRecOn with
  | nil => rfl
  | append_singleton bytes c ih =>
      have hprev := ih fun i hi => by
        have hi' : i < (bytes ++ [c]).length := by
          rw [List.length_append]
          exact Nat.lt_add_right _ hi
        have hdigits := h i hi'
        rwa [List.getElem_append_left hi] at hdigits
      have hlast := h bytes.length (by simp)
      rw [List.getElem_concat_length rfl] at hlast
      rw [List.length_append, List.length_singleton, Nat.mul_add, List.range_add, List.map_append,
        hprev, List.flatMap_append]
      simp [List.range_succ, hexPair, hlast.1, hlast.2.1, hlast.2.2]

theorem Written.map_range {bytes : List Byte} {buffer : HexData}
    (h : Written bytes.length bytes buffer) (hne : bytes ≠ []) :
    (List.range (3 * bytes.length + 1 + bytes.length)).map buffer = line bytes := by
  have hchars : ((List.range bytes.length).map fun i => buffer (3 * bytes.length + 1 + i)) =
      bytes.map printable := by
    apply List.ext_getElem
    · simp
    · intro i _ hi
      rw [List.length_map] at hi
      simp [h.chars i hi]
  rw [List.range_add, List.map_append, List.map_map, List.range_succ, List.map_append,
    map_range_digits h.digits, line, List.append_assoc]
  exact congrArg₂ (fun gap chars => _ ++ (gap :: chars)) (h.gap hne) hchars

theorem text_of_zero {buffer : HexData} {n : Nat} (hn : n < hexDataLen) (hzero : buffer n = 0)
    (hne : ∀ c ∈ (List.range n).map buffer, c ≠ 0) : buffer.text = (List.range n).map buffer := by
  have hsplit : hexDataLen = n + ((hexDataLen - n - 1) + 1) := by omega
  rw [text, hsplit, List.range_add, List.map_append, List.range_succ_eq_map, List.map_cons,
    List.map_cons, Nat.add_zero, hzero,
    List.takeWhile_append_of_pos fun c hc => bne_iff_ne.mpr (hne c hc), List.takeWhile_cons]
  simp

theorem ne_zero_of_mem_line {bytes : List Byte} {c : Byte} (h : c ∈ line bytes) : c ≠ 0 := by
  rw [line] at h
  rcases List.mem_append.mp h with h | h
  · obtain ⟨d, -, hc⟩ := List.mem_flatMap.mp h
    simp only [hexPair, List.cons_append, List.nil_append, List.mem_cons, List.not_mem_nil,
      or_false] at hc
    rcases hc with rfl | rfl | rfl
    · exact (shows_hexChar (high_lt d)).1
    · exact (shows_hexChar (low_lt d)).1
    · exact shows_space.1
  · rcases List.mem_cons.mp h with rfl | h
    · exact shows_space.1
    · obtain ⟨d, -, rfl⟩ := List.mem_map.mp h
      exact (shows_printable d).1

theorem answer_line (calls : List Call) {call : Call} (hpos : call.len ≠ 0)
    (hle : call.len ≤ bytesInLine) : answer calls call = line call.bytes := by
  have hlen : min call.len bytesInLine = call.bytes.length := by
    rw [Nat.min_eq_left hle, call.length_bytes]
  have hbytes : call.bytes ≠ [] := by
    intro heq
    have hlength := call.length_bytes
    rw [heq] at hlength
    exact hpos hlength.symm
  have hend : terminator call.bytes.length call.bytes.length =
      3 * call.bytes.length + 1 + call.bytes.length := by
    have hrow : (call.len - 1) / bytesInLine = 0 ∧ (call.len - 1) % bytesInLine = call.len - 1 := by
      rw [bytesInLine] at hle ⊢
      omega
    rw [call.length_bytes, terminator, if_neg hpos, charIdx, hrow.1, hrow.2, hexLen]
    omega
  have hwritten : Written call.bytes.length call.bytes
      (putBytes call.bytes.length (after calls) call.bytes) :=
    written_putBytes (after calls) (Nat.le_refl _) (call.length_bytes ▸ hle)
  have hrange : (List.range (3 * call.bytes.length + 1 + call.bytes.length)).map
      ((after calls).step call) = line call.bytes := by
    rw [← hwritten.map_range hbytes]
    apply List.map_congr_left
    intro i hi
    rw [step, putAll_eq, hlen, hend]
    exact Function.update_of_ne (Nat.ne_of_lt (List.mem_range.mp hi)) _ _
  have hzero : ((after calls).step call) (3 * call.bytes.length + 1 + call.bytes.length) = 0 := by
    rw [step, putAll_eq, hlen, hend]
    exact Function.update_self _ _ _
  have hroom : 3 * call.bytes.length + 1 + call.bytes.length < hexDataLen := by
    have hmax : hexDataLen = 1057 := by decide
    rw [call.length_bytes, hmax]
    rw [bytesInLine] at hle
    omega
  rw [answer, text_of_zero hroom hzero fun c hc => ne_zero_of_mem_line (hrange ▸ hc), hrange]

/-! ## All requests -/

theorem complete_line {call : Call} (hpos : call.len ≠ 0) (hle : call.len ≤ bytesInLine)
    (calls : List Call) : Complete call.bytes (answer calls call) := by
  intro k hk
  rw [call.length_bytes] at hk
  have hfirst : k = 0 := by
    rw [bytesInLine] at hk hle
    omega
  subst hfirst
  refine ⟨answer calls call, by rw [lines_answer]; rfl, ?_⟩
  have hall : (call.bytes.drop (0 * bytesInLine)).take bytesInLine = call.bytes := by
    rw [Nat.zero_mul, List.drop_zero]
    exact List.take_of_length_le (call.length_bytes ▸ hle)
  rw [hall, answer_line calls hpos hle]
  exact shownIn_line call.bytes

theorem answer_empty {call : Call} (hzero : call.len = 0) (calls : List Call) :
    answer calls call = [] ↔ ∀ earlier ∈ calls, earlier.len = 0 := by
  rw [answer, text_eq_nil, step_zero, after_zero, and_iff_right hzero]

/--
For all requests: the answer is right exactly for a request of one line, and for one of
no bytes that comes after requests of no bytes only.
-/
theorem right_iff (calls : List Call) (call : Call) :
    Right calls call ↔ (call.len ≠ 0 ∧ call.len ≤ bytesInLine) ∨
      (call.len = 0 ∧ ∀ earlier ∈ calls, earlier.len = 0) := by
  constructor
  · intro h
    by_cases hzero : call.len = 0
    · exact .inr ⟨hzero, (answer_empty hzero calls).mp (h.empty hzero)⟩
    · refine .inl ⟨hzero, ?_⟩
      by_contra hmore
      exact not_complete (Nat.lt_of_not_le hmore) h.complete
  · rintro (⟨hpos, hle⟩ | ⟨hzero, hearlier⟩)
    · refine ⟨?_, complete_line hpos hle calls, fun hzero => absurd hzero hpos⟩
      rw [answer_line calls hpos hle, answer_line [] hpos hle]
    · have hempty := (answer_empty hzero calls).mpr hearlier
      refine ⟨?_, ?_, fun _ => hempty⟩
      · rw [hempty, (answer_empty hzero []).mpr fun _ hmem => absurd hmem List.not_mem_nil]
      · intro k hk
        rw [call.length_bytes, hzero] at hk
        exact absurd hk (Nat.not_lt_zero _)

def twoLines : Call where
  ram _ := 0
  addr := 0
  len := 17
  len_le := by decide
  inside := by decide

theorem twoLines_not_right : ¬ Right [] twoLines :=
  fun h => not_complete (by decide) h.complete

end HexData

theorem MemoryServer.getMemString_eq {J : Type} {lib : JsonLib J} {data : J} {s : MemoryServer}
    {calls : List HexData.Call} {call : HexData.Call} {addrField lenField : J}
    (hbuffer : s.hexData = HexData.after calls) (hram : s.mem.ram = call.ram)
    (haddr : lib.find data "addr" = some addrField) (hlen : lib.find data "len" = some lenField)
    (hgetAddr : lib.getU32 addrField = some (BitVec.ofNat 32 call.addr))
    (hgetLen : lib.getU16 lenField = some (BitVec.ofNat 16 call.len)) :
    ∃ used t, s.getMemString lib data = .done (.text (HexData.answer calls call)) used t ∧
      t.hexData = HexData.after (calls ++ [call]) := by
  have hmax : memoryGlobalLen < 2 ^ 32 := by decide
  have hlenNat : min (BitVec.ofNat 16 call.len).toNat 255 = call.len := by
    have hle := call.len_le
    rw [BitVec.toNat_ofNat]
    omega
  have hused : (List.range call.len).map (fun offset =>
      (BitVec.ofNat 32 call.addr + BitVec.ofNat 32 offset).toNat) = indices call.addr call.len := by
    apply List.map_congr_left
    intro offset hoffset
    have hinside := call.inside
    have hlt := List.mem_range.mp hoffset
    rw [← BitVec.ofNat_add, BitVec.toNat_ofNat]
    exact Nat.mod_eq_of_lt (by omega)
  refine ⟨indices call.addr call.len, { s with hexData := (HexData.after calls).step call }, ?_, ?_⟩
  · simp only [getMemString, haddr, hlen, hgetAddr, hgetLen, hlenNat, hused, hbuffer, hram]
    rfl
  · exact (HexData.after_append calls call).symm

end V6Emul
