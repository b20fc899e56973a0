import NetworkBase.Dns.DnsService
import NetworkBase.Library.Span

/-!
# Parsing the configuration in place

`resolvConfParse` reads the whole file into one block and cuts it up there: a zero replaces each
newline in turn, and `strtok_r` puts further zeros behind the tokens of a line.  A function of the
C library that would walk past the block is undefined.
-/

namespace NetworkBase
namespace ResolvConf

/-! ## The C library -/

/-- How far the bytes from a position on are of one kind, where this ends within the block. -/
def walk (kind : UInt8 → Bool) (buf : List UInt8) (position : Nat) : Option Nat :=
  let run := (buf.drop position).takeWhile kind
  if position + run.length < buf.length then some run.length else none

/-- A string. -/
def cString (buf : List UInt8) (position : Nat) : Option (List UInt8) := do
  let length ← walk (· ≠ 0) buf position
  MemoryBlock.read buf position length

/-- `strchr`, for a character that is not zero. -/
def strchr (buf : List UInt8) (position : Nat) (char : UInt8) : Option (Option Nat) := do
  let length ← walk (fun other => other ≠ 0 ∧ other ≠ char) buf position
  let found ← buf[position + length]?
  some (if found = char then some (position + length) else none)

/-- `delims`. -/
def isDelim (char : UInt8) : Bool := char = 32 ∨ char = 9

/-- What a token consists of. -/
def inToken (char : UInt8) : Bool := ! isDelim char

/-- `strtok_r`: the block, the token and where to go on. -/
def strtokR (buf : List UInt8) (position : Nat) : Option (List UInt8 × Option Nat × Nat) := do
  let skipped ← walk isDelim buf position
  let start := position + skipped
  let first ← buf[start]?
  if first = 0 then
    some (buf, none, start)
  else
    let length ← walk (fun char => char ≠ 0 ∧ inToken char) buf start
    let stop := start + length
    let last ← buf[stop]?
    if last = 0 then
      some (buf, some start, stop)
    else
      let buf ← MemoryBlock.write buf stop [0]
      some (buf, some start, stop + 1)

/-! ## The parser -/

/-- `resolvConfParseLine`.  The other keywords lead to nothing. -/
def resolvConfParseLine (start : Nat) (buf : List UInt8) (service : DnsService) :
    Option (List UInt8 × DnsService) := do
  let (buf, firstToken, state) ← strtokR buf start
  match firstToken with
  | none => some (buf, service)
  | some firstToken =>
      let keyword ← cString buf firstToken
      if keyword = DnsService.nameserver then
        let (buf, nameService, _) ← strtokR buf state
        match nameService with
        | none => some (buf, service)
        | some nameService =>
            let name ← cString buf nameService
            some (buf, { service with nameService := service.nameService ++ [name] })
      else
        some (buf, service)

/-- One iteration of the loop over the lines: where the next one begins, or what the service is
behind the last one. -/
def nextLine : List UInt8 × Nat × DnsService → (List UInt8 × Nat × DnsService) ⊕ Option DnsService
  | (buf, start, service) =>
      match strchr buf start 10 with
      | none => .inr none
      | some none => .inr ((resolvConfParseLine start buf service).map Prod.snd)
      | some (some newLine) =>
          match (MemoryBlock.write buf newLine [0]).bind fun buf =>
              resolvConfParseLine start buf service with
          | none => .inr none
          | some (buf, service) => .inl (buf, newLine + 1, service)

/-- `resolvConfParse`, with fuel for its loop.  The size of the block is a number of 32 bits. -/
def resolvConfParse (fuel : Nat) (file : Option ResolvConf) (service : DnsService) :
    Option DnsService :=
  match file with
  | none => some service
  | some file =>
      if file.size = 0 then
        some service
      else do
        let buf ← MemoryBlock.write (List.replicate (file.size + 1).toNat 0) 0 file.read
        if UInt32.ofNat file.read.length ≠ file.size then
          some service
        else
          (← WhileLoop.run nextLine fuel (buf, 0, service))

/-- `Start`. -/
def start (fuel : Nat) (file : Option ResolvConf) (service : DnsService) : Option DnsService :=
  (resolvConfParse fuel file service).map DnsService.checkDnsNameService

/-! ## Walks -/

variable {kind : UInt8 → Bool} {before run after text : List UInt8} {stop : UInt8}

/-- A walk ends at the first byte of another kind. -/
theorem walk_eq (all : ∀ char ∈ run, kind char = true) (other : kind stop = false) :
    walk kind (before ++ (run ++ stop :: after)) before.length = some run.length := by
  have taken := Span.takeWhile_append all (Span.stops_cons other after)
  simp only [walk, List.drop_left, taken]
  rw [if_pos]
  simp only [List.length_append, List.length_cons]
  omega

theorem getElem?_stop :
    (before ++ (run ++ stop :: after))[before.length + run.length]? = some stop := by
  rw [← List.append_assoc, ← List.length_append, List.getElem?_append_right (Nat.le_refl _),
    Nat.sub_self, List.getElem?_cons_zero]

theorem cString_eq (plain : 0 ∉ text) :
    cString (before ++ (text ++ 0 :: after)) before.length = some text := by
  have all : ∀ char ∈ text, decide (char ≠ 0) = true := by
    intro char mem
    refine decide_eq_true ?_
    rintro rfl
    exact plain mem
  rw [cString, walk_eq all (by decide), Option.bind_eq_bind, Option.bind_some,
    MemoryBlock.read_eq_some (by simp), List.drop_left, List.take_left]

/-! ## Tokens -/

theorem strtok_eq (text : List UInt8) :
    DnsService.strtok text =
      if text.dropWhile isDelim = [] then none
      else some ((text.dropWhile isDelim).takeWhile inToken,
        ((text.dropWhile isDelim).dropWhile inToken).tail) := rfl

theorem blank_of_strtok (nothing : DnsService.strtok text = none) :
    ∀ char ∈ text, isDelim char = true := by
  rw [strtok_eq] at nothing
  split at nothing
  · rename_i blank
    exact List.dropWhile_eq_nil_iff.mp blank
  · contradiction

/-- A token stands behind blanks, and the text ends or goes on with a blank behind it. -/
theorem exists_split_of_strtok {token rest : List UInt8}
    (found : DnsService.strtok text = some (token, rest)) :
    ∃ blanks first more tail, token = first :: more ∧ text = blanks ++ (first :: more ++ tail) ∧
      (∀ char ∈ blanks, isDelim char = true) ∧ (∀ char ∈ token, inToken char = true) ∧
      (tail = [] ∧ rest = [] ∨ ∃ delim, tail = delim :: rest ∧ isDelim delim = true) := by
  rw [strtok_eq] at found
  split at found
  · contradiction
  rename_i some_left
  obtain ⟨rfl, rfl⟩ := Prod.mk.inj (Option.some.inj found)
  obtain ⟨first, start, start_eq⟩ := List.exists_cons_of_ne_nil some_left
  have first_kept : inToken first = true := by
    have stops := Span.stops_dropWhile isDelim text
    rw [start_eq] at stops
    rw [inToken, stops first rfl]
    rfl
  have token_eq : (text.dropWhile isDelim).takeWhile inToken =
      first :: start.takeWhile inToken := by
    rw [start_eq, List.takeWhile_cons_of_pos first_kept]
  refine ⟨text.takeWhile isDelim, first, start.takeWhile inToken,
    (text.dropWhile isDelim).dropWhile inToken, token_eq, ?_,
    fun char mem => List.mem_takeWhile_imp mem, fun char mem => List.mem_takeWhile_imp mem, ?_⟩
  · rw [← token_eq, List.takeWhile_append_dropWhile, List.takeWhile_append_dropWhile]
  · cases tail_eq : (text.dropWhile isDelim).dropWhile inToken with
    | nil => exact Or.inl ⟨rfl, rfl⟩
    | cons delim tail =>
        have stops := Span.stops_dropWhile inToken (text.dropWhile isDelim)
        rw [tail_eq] at stops
        exact Or.inr ⟨delim, rfl, by simpa [inToken] using stops delim rfl⟩

/-- `strtok_r` leaves a text without tokens alone. -/
theorem strtokR_of_none (before after : List UInt8) (nothing : DnsService.strtok text = none) :
    ∃ state, strtokR (before ++ (text ++ 0 :: after)) before.length =
      some (before ++ (text ++ 0 :: after), none, state) := by
  refine ⟨before.length + text.length, ?_⟩
  rw [strtokR, walk_eq (blank_of_strtok nothing) (by decide)]
  simp only [Option.bind_eq_bind, Option.bind_some, getElem?_stop, if_true]

/-- `strtok_r` finds the token, ends it with a zero and goes on behind it. -/
theorem strtokR_of_some (before after : List UInt8) {token rest : List UInt8} (plain : 0 ∉ text)
    (found : DnsService.strtok text = some (token, rest)) :
    0 ∉ token ∧ 0 ∉ rest ∧ ∃ early front behind,
      strtokR (before ++ (text ++ 0 :: after)) before.length =
        some (front ++ (rest ++ 0 :: after), some early.length, front.length) ∧
      front.length + rest.length = before.length + text.length ∧
      front ++ (rest ++ 0 :: after) = early ++ (token ++ 0 :: behind) := by
  obtain ⟨blanks, first, more, tail, rfl, rfl, blank, kept, ends⟩ := exists_split_of_strtok found
  simp only [List.mem_append, not_or] at plain
  obtain ⟨-, token_plain, tail_plain⟩ := plain
  have first_ne : first ≠ 0 := by
    rintro rfl
    exact token_plain List.mem_cons_self
  have first_other : isDelim first = false := by
    simpa [inToken] using kept first List.mem_cons_self
  have in_token : ∀ char ∈ first :: more, decide (char ≠ 0 ∧ inToken char = true) = true := by
    intro char mem
    refine decide_eq_true ⟨?_, kept char mem⟩
    rintro rfl
    exact token_plain mem
  have start_eq : before.length + blanks.length = (before ++ blanks).length :=
    List.length_append.symm
  have shape : before ++ (blanks ++ (first :: more ++ tail) ++ 0 :: after) =
      before ++ (blanks ++ first :: (more ++ (tail ++ 0 :: after))) := by simp
  have shape' : before ++ (blanks ++ first :: (more ++ (tail ++ 0 :: after))) =
      before ++ blanks ++ (first :: more ++ (tail ++ 0 :: after)) := by simp
  rw [shape, strtokR, walk_eq blank first_other]
  simp only [Option.bind_eq_bind, Option.bind_some, getElem?_stop, if_neg first_ne]
  rw [shape', start_eq]
  rcases ends with ⟨rfl, rfl⟩ | ⟨delim, rfl, is_delim⟩
  · -- The token ends the text, and the zero behind it is there already.
    refine ⟨token_plain, List.not_mem_nil, before ++ blanks, before ++ blanks ++ first :: more,
      after, ?_, by simp, by simp⟩
    rw [List.nil_append, walk_eq in_token (by decide)]
    simp only [Option.bind_some, getElem?_stop, if_true]
    rw [← List.length_append, List.append_assoc (before ++ blanks) (first :: more)]
  · -- The zero replaces the blank behind the token.
    simp only [List.mem_cons, not_or] at tail_plain
    have delim_ne : delim ≠ 0 := fun zero => tail_plain.1 zero.symm
    have delim_other : decide (delim ≠ 0 ∧ inToken delim = true) = false := by
      simp [inToken, is_delim]
    have shape'' : first :: more ++ (delim :: rest ++ 0 :: after) =
        first :: more ++ delim :: (rest ++ 0 :: after) := rfl
    have written := MemoryBlock.write_append (before ++ blanks ++ first :: more) [delim] [0]
      (rest ++ 0 :: after) rfl
    refine ⟨token_plain, tail_plain.2, before ++ blanks,
      before ++ blanks ++ (first :: more ++ [0]), rest ++ 0 :: after, ?_, by simp; omega, by simp⟩
    rw [shape'', walk_eq in_token delim_other]
    simp only [Option.bind_some, getElem?_stop, if_neg delim_ne]
    rw [← List.length_append]
    simp only [List.append_assoc, List.cons_append, List.nil_append] at written ⊢
    rw [written]
    simp [Nat.add_assoc]

/-! ## Lines -/

/-- A line is parsed as the list of its characters, and nothing behind it changes. -/
theorem resolvConfParseLine_eq (before after : List UInt8) (plain : 0 ∉ text)
    (service : DnsService) :
    ∃ front, resolvConfParseLine before.length (before ++ (text ++ 0 :: after)) service =
        some (front ++ after, DnsService.resolvConfParseLine text service) ∧
      front.length = before.length + text.length + 1 := by
  have whole (front rest : List UInt8) :
      front ++ (rest ++ 0 :: after) = front ++ rest ++ [0] ++ after := by simp
  have length_eq (front rest : List UInt8) :
      (front ++ rest ++ [0]).length = front.length + rest.length + 1 := by
    rw [List.length_append, List.length_append, List.length_singleton]
  rw [resolvConfParseLine, DnsService.resolvConfParseLine]
  cases first : DnsService.strtok text with
  | none =>
      obtain ⟨state, answer⟩ := strtokR_of_none before after first
      refine ⟨before ++ text ++ [0], ?_, length_eq before text⟩
      rw [answer, whole]
      rfl
  | some found =>
      obtain ⟨token, rest⟩ := found
      obtain ⟨token_plain, rest_plain, early, front, behind, answer, lengths, same⟩ :=
        strtokR_of_some before after plain first
      have keyword : cString (front ++ (rest ++ 0 :: after)) early.length = some token := by
        rw [same]
        exact cString_eq token_plain
      have front_length := length_eq front rest
      rw [lengths] at front_length
      rw [answer]
      simp only [Option.bind_eq_bind, Option.bind_some, keyword]
      by_cases is_nameserver : token = DnsService.nameserver
      · simp only [if_pos is_nameserver]
        cases second : DnsService.strtok rest with
        | none =>
            obtain ⟨state, answer⟩ := strtokR_of_none front after second
            refine ⟨front ++ rest ++ [0], ?_, front_length⟩
            rw [answer, whole]
            rfl
        | some found =>
            obtain ⟨name, rest'⟩ := found
            obtain ⟨name_plain, -, early', front', behind', answer, lengths', same'⟩ :=
              strtokR_of_some front after rest_plain second
            have name_eq : cString (front' ++ (rest' ++ 0 :: after)) early'.length = some name := by
              rw [same']
              exact cString_eq name_plain
            refine ⟨front' ++ rest' ++ [0], ?_, by rw [length_eq, lengths', lengths]⟩
            rw [answer]
            simp only [Option.bind_some, name_eq]
            rw [whole]
      · refine ⟨front ++ rest ++ [0], ?_, front_length⟩
        simp only [if_neg is_nameserver]
        rw [whole]

section Iterations

variable {line : List UInt8}

/-- Within a line, `strchr` goes on. -/
theorem in_line (plain : 0 ∉ line) (no_newline : 10 ∉ line) :
    ∀ char ∈ line, decide (char ≠ 0 ∧ char ≠ 10) = true := by
  intro char mem
  refine decide_eq_true ⟨?_, ?_⟩
  · rintro rfl
    exact plain mem
  · rintro rfl
    exact no_newline mem

/-- The last line, which no newline ends. -/
theorem nextLine_last (before after : List UInt8) (plain : 0 ∉ line) (no_newline : 10 ∉ line)
    (service : DnsService) :
    nextLine (before ++ (line ++ 0 :: after), before.length, service) =
      .inr (some (DnsService.resolvConfParseLine line service)) := by
  obtain ⟨front, parsed, -⟩ := resolvConfParseLine_eq before after plain service
  have no_more : strchr (before ++ (line ++ 0 :: after)) before.length 10 = some none := by
    rw [strchr, walk_eq (in_line plain no_newline) (by decide)]
    simp only [Option.bind_eq_bind, Option.bind_some, getElem?_stop]
    rfl
  rw [nextLine, no_more]
  simp only [parsed, Option.map_some]

/-- A line is cut off at its newline, and the loop goes on behind it. -/
theorem nextLine_newline (before after : List UInt8) (plain : 0 ∉ line) (no_newline : 10 ∉ line)
    (service : DnsService) :
    ∃ front, nextLine (before ++ (line ++ 10 :: after), before.length, service) =
      .inl (front ++ after, front.length, DnsService.resolvConfParseLine line service) := by
  obtain ⟨front, parsed, front_length⟩ := resolvConfParseLine_eq before after plain service
  have found : strchr (before ++ (line ++ 10 :: after)) before.length 10 =
      some (some (before.length + line.length)) := by
    rw [strchr, walk_eq (in_line plain no_newline) (by decide)]
    simp only [Option.bind_eq_bind, Option.bind_some, getElem?_stop, if_true]
  have written : MemoryBlock.write (before ++ (line ++ 10 :: after))
      (before.length + line.length) [0] = some (before ++ (line ++ 0 :: after)) := by
    have cut := MemoryBlock.write_append (before ++ line) [10] [0] after rfl
    simpa using cut
  refine ⟨front, ?_⟩
  rw [nextLine, found]
  simp only [written, Option.bind_some, parsed, front_length]

end Iterations

/-- The loop parses the lines of the rest of the text. -/
theorem returns_lines (before after : List UInt8) (plain : 0 ∉ text) (service : DnsService) :
    WhileLoop.Returns nextLine (before ++ (text ++ 0 :: after), before.length, service)
      (some ((text.splitOn 10).foldl
        (fun service line => DnsService.resolvConfParseLine line service) service)) := by
  induction length_eq : text.length using Nat.strong_induction_on
    generalizing before text service with
  | _ length ih =>
      subst length_eq
      by_cases newline : 10 ∈ text
      · obtain ⟨line, rest, rfl, no_newline⟩ := List.eq_append_cons_of_mem newline
        simp only [List.mem_append, List.mem_cons, not_or] at plain
        obtain ⟨line_plain, -, rest_plain⟩ := plain
        have shape : before ++ (line ++ 10 :: rest ++ 0 :: after) =
            before ++ (line ++ 10 :: (rest ++ 0 :: after)) := by simp
        obtain ⟨front, step⟩ :=
          nextLine_newline before (rest ++ 0 :: after) line_plain no_newline service
        rw [List.splitOn_append_cons_self_of_not_mem no_newline, List.foldl_cons, shape]
        refine .step step (ih rest.length ?_ _ rest_plain _ rfl)
        rw [List.length_append, List.length_cons]
        omega
      · rw [List.splitOn_eq_singleton newline]
        exact .done (nextLine_last before after plain newline service)

/-! ## The file -/

/-- The block that `fread` fills ends with a zero, so its text ends within it. -/
theorem exists_text (read : List UInt8) :
    ∃ after, read ++ [0] = SocketAssistant.cStr read ++ 0 :: after := by
  have split_eq := List.takeWhile_append_dropWhile (p := (· ≠ (0 : UInt8))) (l := read)
  cases rest_eq : read.dropWhile (· ≠ (0 : UInt8)) with
  | nil =>
      rw [rest_eq, List.append_nil] at split_eq
      exact ⟨[], by rw [SocketAssistant.cStr, split_eq]⟩
  | cons zero rest =>
      have stops := Span.stops_dropWhile (· ≠ (0 : UInt8)) read
      rw [rest_eq] at stops
      obtain rfl : zero = 0 := by simpa using stops zero rfl
      refine ⟨rest ++ [0], ?_⟩
      rw [rest_eq] at split_eq
      rw [SocketAssistant.cStr, ← List.cons_append, ← List.append_assoc, split_eq]

theorem zero_notMem_cStr (read : List UInt8) : 0 ∉ SocketAssistant.cStr read := fun mem => by
  simpa using List.mem_takeWhile_imp mem

/-- A file that is read as a whole is parsed as the list of its lines, unless its size is the
largest number of 32 bits. -/
theorem exists_resolvConfParse {file : ResolvConf} (whole : file.read.length = file.size.toNat)
    (fits : file.size.toNat + 1 < 2 ^ 32) (service : DnsService) :
    ∃ fuel, resolvConfParse fuel (some file) service =
      some (DnsService.resolvConfParse (some file) service) := by
  have size_eq : UInt32.ofNat file.read.length = file.size := by rw [whole, UInt32.ofNat_toNat]
  have block : (file.size + 1).toNat = file.read.length + 1 := by
    rw [UInt32.toNat_add, whole]
    exact Nat.mod_eq_of_lt fits
  have filled : MemoryBlock.write (List.replicate (file.size + 1).toNat 0) 0 file.read =
      some (file.read ++ [0]) := by
    have written := MemoryBlock.write_append [] (List.replicate file.read.length 0) file.read [0]
      List.length_replicate
    rw [block, List.replicate_succ']
    exact written
  obtain ⟨after, text_eq⟩ := exists_text file.read
  obtain ⟨fuel, ends⟩ :=
    returns_lines [] after (zero_notMem_cStr file.read) service
  refine ⟨fuel, ?_⟩
  rw [resolvConfParse, DnsService.resolvConfParse]
  simp only [filled, size_eq, ne_eq, not_true, if_false]
  split
  · rfl
  · rw [text_eq]
    exact congrArg (Option.bind · id) ends

/-- For a file of the largest size the block is empty, and reading the file runs over it. -/
theorem resolvConfParse_of_largest {file : ResolvConf} (largest : file.size = 0xffffffff)
    (nonempty : file.read ≠ []) (fuel : Nat) (service : DnsService) :
    resolvConfParse fuel (some file) service = none := by
  have no_room : MemoryBlock.write (List.replicate (file.size + 1).toNat 0) 0 file.read = none := by
    rw [largest, MemoryBlock.write, if_neg]
    simpa using nonempty
  simp only [resolvConfParse, no_room]
  rw [if_neg (by rw [largest]; decide)]
  rfl

/-- With enough fuel the parse leaves the same service for every amount of it. -/
theorem resolvConfParse_unique {fuel fuel' : Nat} {file : Option ResolvConf}
    {service parsed parsed' : DnsService} (first : resolvConfParse fuel file service = some parsed)
    (second : resolvConfParse fuel' file service = some parsed') : parsed = parsed' := by
  cases file with
  | none => exact Option.some.inj (first.symm.trans second)
  | some file =>
  rw [resolvConfParse] at first second
  by_cases empty : file.size = 0
  · rw [if_pos empty] at first second
    exact Option.some.inj (first.symm.trans second)
  rw [if_neg empty] at first second
  obtain ⟨buf, read, first⟩ := Option.bind_eq_some_iff.mp first
  obtain ⟨buf', read', second⟩ := Option.bind_eq_some_iff.mp second
  obtain rfl := Option.some.inj (read.symm.trans read')
  by_cases cut : UInt32.ofNat file.read.length ≠ file.size
  · rw [if_pos cut] at first second
    exact Option.some.inj (first.symm.trans second)
  · rw [if_neg cut] at first second
    obtain ⟨result, ends, rfl⟩ := Option.bind_eq_some_iff.mp first
    obtain ⟨result', ends', rfl⟩ := Option.bind_eq_some_iff.mp second
    exact Option.some.inj (WhileLoop.Returns.unique ⟨fuel, ends⟩ ⟨fuel', ends'⟩)

end ResolvConf
end NetworkBase
