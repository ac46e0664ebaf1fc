import ManagedRuntime.Proofs.Descriptor.MethodTypes

/-!
Descriptors read by byte offsets. The text is scanned byte by byte, and parts of it are cut out
between offsets; a cut inside of a character is an error of its own. Main statement: the texts that
are read as method descriptors are those that split into field descriptors, the split is what is
read, and reading by byte offsets comes to the same for every text, so that no cut goes through a
character.
-/
namespace ManagedRuntime.Offsets

/-- Why no descriptor is read: the text is none, or it had to be cut inside of a character. -/
inductive Refusal where
  | malformed
  | brokenCharacter
  deriving DecidableEq

def bytesOf (s : String) : List UInt8 := s.toUTF8.data.toList

def byte (c : Char) : UInt8 := UInt8.ofNat c.toNat

def charsFrom? : List Char → Nat → Option (List Char)
  | cs, 0 => some cs
  | [], _ + 1 => none
  | c :: cs, k + 1 => if c.utf8Size ≤ k + 1 then charsFrom? cs (k + 1 - c.utf8Size) else none

def cut (s : String) (start stop : Nat) : Except Refusal String :=
  match charsFrom? s.toList start, charsFrom? s.toList stop with
  | some front, some back =>
    if start ≤ stop then .ok (String.ofList (front.take (front.length - back.length)))
    else .error .brokenCharacter
  | _, _ => .error .brokenCharacter

def elementEnd (bytes : List UInt8) (pos : Nat) : Except Refusal Nat :=
  match bytes[pos]? with
  | none => .error .malformed
  | some b =>
    if b = byte 'L' then
      match (bytes.drop pos).findIdx? (· = byte ';') with
      | none | some 1 => .error .malformed
      | some k => .ok (pos + k + 1)
    else
      match Primitive.ofLetter? (Char.ofNat b.toNat) with
      | none | some .void => .error .malformed
      | some _ => .ok (pos + 1)

def nested : Nat → FieldType → FieldType
  | 0, t => t
  | n + 1, t => .array (nested n t)

def typeOf (dims : Nat) (cs : List Char) : Except Refusal FieldType :=
  match cs.drop dims with
  | [] => .error .malformed
  | 'L' :: name => .ok (nested dims (.object (String.ofList name.dropLast)))
  | c :: _ =>
    match Primitive.ofLetter? c with
    | none => .error .malformed
    | some p => .ok (nested dims (.primitive p))

def readType (s : String) (start : Nat) : Except Refusal (FieldType × Nat) := do
  let dims := ((bytesOf s).drop start).takeWhile (· = byte '[') |>.length
  if dims > FieldType.maxDimensions then throw .malformed
  let stop ← elementEnd (bytesOf s) (start + dims)
  let text ← cut s start stop
  let t ← typeOf dims text.toList
  return (t, stop)

/-- The types up to the closing parenthesis, and where what is behind it begins. Each type takes a
byte at least, so as much fuel as there are bytes suffices. -/
def readParams (s : String) : Nat → Nat → Except Refusal (List FieldType × Nat)
  | 0, _ => .error .malformed
  | fuel + 1, pos =>
    match (bytesOf s)[pos]? with
    | none => .error .malformed
    | some b =>
      if b = byte ')' then .ok ([], pos + 1)
      else do
        let (t, next) ← readType s pos
        let (ts, stop) ← readParams s fuel next
        return (t :: ts, stop)

def readResult (s : String) (pos : Nat) : Except Refusal (Option FieldType) := do
  let rest ← cut s pos (bytesOf s).length
  if rest = "V" then return none
  let (t, stop) ← readType rest 0
  if stop = (bytesOf rest).length then return some t else throw .malformed

def readMethodType (s : String) : Except Refusal MethodType := do
  if (bytesOf s)[0]? ≠ some (byte '(') then throw .malformed
  let (params, pos) ← readParams s (bytesOf s).length 1
  let result ← readResult s pos
  return ⟨params, result⟩

/-! Characters and their bytes. -/

variable {cs front middle back tail : List Char} {s : String} {a c : Char} {n depth : Nat}

def encode (cs : List Char) : List UInt8 := cs.flatMap String.utf8EncodeChar

def width : List Char → Nat
  | [] => 0
  | c :: cs => c.utf8Size + width cs

theorem bytesOf_eq (s : String) : bytesOf s = encode s.toList := by
  have encoded := String.toByteArray_ofList (l := s.toList)
  rw [String.ofList_toList] at encoded
  rw [bytesOf, String.toUTF8, encoded]
  simp [List.utf8Encode, encode]

theorem width_cons (c : Char) (cs : List Char) : width (c :: cs) = c.utf8Size + width cs := rfl

theorem length_encode (cs : List Char) : (encode cs).length = width cs := by
  induction cs with
  | nil => rfl
  | cons c cs ih =>
    rw [encode, List.flatMap_cons, List.length_append, String.length_utf8EncodeChar, ← encode, ih,
      width_cons]

theorem width_append (cs ds : List Char) : width (cs ++ ds) = width cs + width ds := by
  induction cs with
  | nil => simp [width]
  | cons c cs ih =>
    rw [List.cons_append, width_cons, width_cons, ih]
    omega

theorem length_le_width (cs : List Char) : cs.length ≤ width cs := by
  induction cs with
  | nil => simp
  | cons c cs ih =>
    have positive := c.utf8Size_pos
    rw [width_cons, List.length_cons]
    omega

theorem encode_cases (c : Char) :
    c.toNat < 128 ∧ String.utf8EncodeChar c = [byte c] ∨
      128 ≤ c.toNat ∧ ∀ b ∈ String.utf8EncodeChar c, 128 ≤ b.toNat := by
  unfold String.utf8EncodeChar byte
  simp only [Char.toNat_val]
  split
  · left
    exact ⟨by omega, rfl⟩
  · right
    refine ⟨by omega, ?_⟩
    split
    · simp
      omega
    · split
      · simp
        omega
      · simp
        omega

theorem toNat_byte (ascii : a.toNat < 128) : (byte a).toNat = a.toNat := by
  simp [byte]
  omega

theorem encode_ascii (ascii : a.toNat < 128) : String.utf8EncodeChar a = [byte a] := by
  rcases encode_cases a with ⟨-, bytes⟩ | ⟨far, -⟩
  · exact bytes
  · omega

theorem utf8Size_ascii (ascii : a.toNat < 128) : a.utf8Size = 1 := by
  rw [← String.length_utf8EncodeChar, encode_ascii ascii]
  rfl

theorem width_replicate (ascii : a.toNat < 128) (n : Nat) : width (List.replicate n a) = n := by
  induction n with
  | zero => rfl
  | succ n ih =>
    rw [List.replicate_succ, width_cons, ih, utf8Size_ascii ascii]
    omega

/-- The byte of an ASCII character is in no other character. -/
theorem notMem_encode (ascii : a.toNat < 128) (other : c ≠ a) :
    byte a ∉ String.utf8EncodeChar c := by
  intro member
  rcases encode_cases c with ⟨ascii', bytes⟩ | ⟨-, beyond⟩
  · rw [bytes, List.mem_singleton] at member
    have codes := congrArg UInt8.toNat member
    rw [toNat_byte ascii, toNat_byte ascii'] at codes
    exact other (Char.toNat_inj.mp codes.symm)
  · have far := beyond _ member
    rw [toNat_byte ascii] at far
    omega

theorem exists_head (c : Char) : ∃ b bs, String.utf8EncodeChar c = b :: bs := by
  cases bytes : String.utf8EncodeChar c with
  | nil =>
    have positive := c.utf8Size_pos
    rw [← String.length_utf8EncodeChar, bytes] at positive
    simp at positive
  | cons b bs => exact ⟨b, bs, rfl⟩

theorem head_iff (ascii : a.toNat < 128) {b : UInt8} {bs : List UInt8}
    (bytes : String.utf8EncodeChar c = b :: bs) : b = byte a ↔ c = a := by
  constructor
  · rintro rfl
    by_cases same : c = a
    · exact same
    · exact absurd (by simp [bytes]) (notMem_encode ascii same)
  · rintro rfl
    rw [encode_ascii ascii] at bytes
    exact (List.cons.inj bytes).1.symm

/-! Scanning bytes. -/

theorem head?_encode_iff (ascii : a.toNat < 128) (cs : List Char) :
    (encode cs).head? = some (byte a) ↔ cs.head? = some a := by
  cases cs with
  | nil => simp [encode]
  | cons c cs =>
    obtain ⟨b, bs, bytes⟩ := exists_head c
    simp [encode, bytes, head_iff ascii bytes]

theorem drop_encode (front back : List Char) :
    (encode (front ++ back)).drop (width front) = encode back := by
  rw [encode, List.flatMap_append, ← length_encode]
  exact List.drop_left

theorem getElem?_encode (front back : List Char) :
    (encode (front ++ back))[width front]? = (encode back).head? := by
  rw [← drop_encode front back, List.head?_drop]

theorem length_takeWhile_encode (ascii : a.toNat < 128) (cs : List Char) :
    ((encode cs).takeWhile (· = byte a)).length = (cs.takeWhile (· = a)).length := by
  induction cs with
  | nil => rfl
  | cons c cs ih =>
    obtain ⟨b, bs, bytes⟩ := exists_head c
    have told := head_iff ascii bytes
    by_cases same : c = a
    · subst same
      rw [encode, List.flatMap_cons, encode_ascii ascii, ← encode]
      simpa using ih
    · rw [encode, List.flatMap_cons, bytes]
      simp [told, same]

theorem findIdx?_of_notMem (ascii : a.toNat < 128) (absent : a ∉ front) :
    (encode front).findIdx? (· = byte a) = none := by
  rw [List.findIdx?_eq_none_iff]
  intro b member
  obtain ⟨c, there, inside⟩ := List.mem_flatMap.mp member
  have other : c ≠ a := fun same => absent (same ▸ there)
  have differs : b ≠ byte a := fun same => notMem_encode ascii other (same ▸ inside)
  simpa using differs

theorem findIdx?_encode (ascii : a.toNat < 128) (absent : a ∉ front) (back : List Char) :
    (encode (front ++ a :: back)).findIdx? (· = byte a) = some (width front) := by
  have before := findIdx?_of_notMem ascii absent
  rw [encode, List.flatMap_append, ← encode, List.findIdx?_append, before, length_encode]
  simp [encode_ascii ascii, List.findIdx?_cons]

/-! Cutting. -/

theorem charsFrom?_append (front back : List Char) :
    charsFrom? (front ++ back) (width front) = some back := by
  induction front with
  | nil => simp [width, charsFrom?]
  | cons c cs ih =>
    have positive := c.utf8Size_pos
    obtain ⟨k, whole⟩ : ∃ k, width (c :: cs) = k + 1 := by
      refine ⟨c.utf8Size + width cs - 1, ?_⟩
      rw [width_cons]
      omega
    rw [width_cons] at whole
    rw [width_cons, List.cons_append, whole, charsFrom?, if_pos (by omega)]
    rw [show k + 1 - c.utf8Size = width cs by omega]
    exact ih

/-- Between characters the text can be cut. -/
theorem cut_append (text : s.toList = front ++ (middle ++ back)) :
    cut s (width front) (width (front ++ middle)) = .ok (String.ofList middle) := by
  have before := charsFrom?_append front (middle ++ back)
  have behind := charsFrom?_append (front ++ middle) back
  rw [List.append_assoc] at behind
  rw [cut, text, before, behind]
  simp [width_append]

/-! One type. -/

theorem ofLetter?_head {b : UInt8} {bs : List UInt8} (bytes : String.utf8EncodeChar c = b :: bs) :
    Primitive.ofLetter? (Char.ofNat b.toNat) = Primitive.ofLetter? c := by
  have far (x : Char) (beyond : 128 ≤ x.toNat) : Primitive.ofLetter? x = none := by
    cases letter : Primitive.ofLetter? x with
    | none => rfl
    | some p =>
      have text := Primitive.letter_of_ofLetter? letter
      subst text
      cases p <;> simp [Primitive.letter] at beyond
  rcases encode_cases c with ⟨ascii, alone⟩ | ⟨beyond, bytes'⟩
  · rw [alone] at bytes
    obtain ⟨rfl, -⟩ := List.cons.inj bytes
    rw [toNat_byte ascii, Char.ofNat_toNat]
  · have high : 128 ≤ b.toNat := bytes' b (by simp [bytes])
    have valid : b.toNat.isValidChar := .inl (by have low := b.toNat_lt; omega)
    have code : (Char.ofNat b.toNat).toNat = b.toNat := by
      rw [Char.ofNat, dif_pos valid]
      rfl
    rw [far c beyond, far _ (by omega)]

theorem scan_unended (absent : ';' ∉ cs) (depth : Nat) :
    FieldType.scan depth ('L' :: cs) = none := by
  have inside : ∀ c ∈ cs, decide (c ≠ ';') = true := by
    intro c member
    exact decide_eq_true fun same => absent (same ▸ member)
  have back : cs.dropWhile (· ≠ ';') = [] := by
    have whole : (cs ++ []).dropWhile (· ≠ ';') = [] := List.dropWhile_append_of_pos inside
    rwa [List.append_nil] at whole
  rw [FieldType.scan, back]
  cases cs.takeWhile (· ≠ ';') <;> rfl

theorem elementEnd_eq (front : List Char) (plain : tail.head? ≠ some '[') (depth : Nat) :
    elementEnd (encode (front ++ tail)) (width front) =
      (FieldType.scan depth tail).elim (.error .malformed)
        fun r => .ok (width (front ++ r.1.descriptorChars)) := by
  rw [elementEnd, getElem?_encode, drop_encode]
  cases tail with
  | nil => rfl
  | cons c cs =>
    obtain ⟨b, bs, bytes⟩ := exists_head c
    have first : (encode (c :: cs)).head? = some b := by simp [encode, bytes]
    have told := head_iff (a := 'L') (by decide) bytes
    rw [first]
    by_cases class_ : c = 'L'
    · subst class_
      simp only [told, if_true]
      by_cases ended : ';' ∈ cs
      · obtain ⟨name, rest, rfl, unended⟩ := List.eq_append_cons_of_mem ended
        have absent : ';' ∉ 'L' :: name := by simpa using unended
        have found := findIdx?_encode (by decide) absent rest
        rw [List.cons_append, width_cons, utf8Size_ascii (by decide)] at found
        rw [found]
        cases name with
        | nil => rfl
        | cons c cs =>
          have longer : width (c :: cs) ≠ 0 := by
            have positive := c.utf8Size_pos
            rw [width_cons]
            omega
          have last : width [';'] = 1 := by decide
          rw [FieldType.scan_named (by simp) unended]
          split
          · cases ‹_ = none›
          · have single := Option.some.inj ‹_ = some 1›
            omega
          · rename_i k _ same
            obtain rfl := Option.some.inj same
            have inside : (FieldType.object (String.ofList (c :: cs))).descriptorChars =
                'L' :: (c :: cs ++ [';']) := by
              rw [FieldType.descriptorChars, String.toList_ofList]
            simp only [Option.elim, inside, width_append, width_cons 'L', utf8Size_ascii (a := 'L')
              (by decide), last]
            rfl
      · rw [findIdx?_of_notMem (by decide) (by simpa using ended), scan_unended ended]
        rfl
    · simp only [told, class_, if_false]
      rw [ofLetter?_head bytes, FieldType.scan.eq_4]
      · cases letter : Primitive.ofLetter? c with
        | none => rfl
        | some p =>
          have text := Primitive.letter_of_ofLetter? letter
          subst text
          have alone : p.letter.toNat < 128 := by cases p <;> decide
          cases p with
          | void => rfl
          | _ => simp [FieldType.descriptorChars, utf8Size_ascii alone, width, width_append]
      · intro bracket
        exact plain (by simp [bracket])
      · exact class_

theorem typeOf_eq {t : FieldType} (plain : t.dimensions = 0) (n : Nat) :
    typeOf n (List.replicate n '[' ++ t.descriptorChars) = .ok (nested n t) := by
  have element : (List.replicate n '[' ++ t.descriptorChars).drop n = t.descriptorChars := by
    rw [List.drop_append_of_le_length (by simp)]
    simp
  rw [typeOf, element]
  cases t with
  | primitive p => cases p <;> rfl
  | object name => simp [FieldType.descriptorChars, List.dropLast_append_of_ne_nil]
  | array component => simp [FieldType.dimensions] at plain

theorem scan_brackets (inside : depth ≤ FieldType.maxDimensions) (n : Nat) (tail : List Char) :
    FieldType.scan depth (List.replicate n '[' ++ tail) =
      if depth + n ≤ FieldType.maxDimensions then
        (FieldType.scan (depth + n) tail).map fun r => (nested n r.1, r.2)
      else none := by
  induction n generalizing depth with
  | zero => simp [inside, nested]
  | succ n ih =>
    rw [List.replicate_succ, List.cons_append, FieldType.scan]
    by_cases deeper : depth < FieldType.maxDimensions
    · rw [if_pos deeper, ih (by omega), show depth + 1 + n = depth + (n + 1) by omega]
      split
      · simp [nested, Function.comp_def]
      · rfl
    · rw [if_neg deeper, if_neg (by omega)]

theorem descriptorChars_nested (n : Nat) (t : FieldType) :
    (nested n t).descriptorChars = List.replicate n '[' ++ t.descriptorChars := by
  induction n with
  | zero => rfl
  | succ n ih => simp [nested, FieldType.descriptorChars, ih, List.replicate_succ]

theorem exists_brackets (cs : List Char) :
    ∃ n tail, tail.head? ≠ some '[' ∧ cs = List.replicate n '[' ++ tail := by
  induction cs with
  | nil => exact ⟨0, [], by simp, rfl⟩
  | cons c cs ih =>
    by_cases bracket : c = '['
    · obtain ⟨n, tail, plain, rfl⟩ := ih
      exact ⟨n + 1, tail, plain, by rw [bracket, List.replicate_succ, List.cons_append]⟩
    · exact ⟨0, c :: cs, by simpa using bracket, rfl⟩

theorem readType_eq (text : s.toList = front ++ back) :
    readType s (width front) = (FieldType.scan 0 back).elim (.error .malformed)
      fun r => .ok (r.1, width (front ++ r.1.descriptorChars)) := by
  obtain ⟨n, tail, plain, rfl⟩ := exists_brackets back
  have dims : (((bytesOf s).drop (width front)).takeWhile (· = byte '[')).length = n := by
    rw [bytesOf_eq, text, drop_encode, length_takeWhile_encode (by decide)]
    have none_more : tail.takeWhile (· = '[') = [] := by
      cases tail with
      | nil => rfl
      | cons c cs =>
        have other : c ≠ '[' := by simpa using plain
        simp [other]
    rw [List.takeWhile_append_of_pos (by simp), none_more]
    simp
  have pos : width front + n = width (front ++ List.replicate n '[') := by
    rw [width_append, width_replicate (by decide)]
  rw [scan_brackets (Nat.zero_le _), readType, dims]
  by_cases fits : n ≤ FieldType.maxDimensions
  · have stop := elementEnd_eq (front ++ List.replicate n '[') plain (0 + n)
    rw [List.append_assoc, ← text, ← bytesOf_eq, ← pos] at stop
    rw [if_neg (by omega), if_pos (by omega), stop]
    cases read : FieldType.scan (0 + n) tail with
    | none => rfl
    | some r =>
      obtain ⟨t, rest⟩ := r
      obtain ⟨rfl, -, -⟩ := FieldType.scan_inv read (by omega)
      have flat : t.dimensions = 0 := by
        cases t with
        | array component => simp [FieldType.descriptorChars] at plain
        | _ => rfl
      have whole : front ++ List.replicate n '[' ++ t.descriptorChars =
          front ++ (nested n t).descriptorChars := by
        rw [descriptorChars_nested, List.append_assoc]
      have between : cut s (width front) (width (front ++ (nested n t).descriptorChars)) =
          .ok (nested n t).descriptor := by
        have parts : s.toList = front ++ ((nested n t).descriptorChars ++ rest) := by
          rw [text, descriptorChars_nested, List.append_assoc]
        exact cut_append parts
      have kind : typeOf n (nested n t).descriptorChars = .ok (nested n t) := by
        rw [descriptorChars_nested]
        exact typeOf_eq flat n
      simp only [Option.elim, Option.map_some, whole, between, FieldType.descriptor,
        String.toList_ofList, kind, bind, Except.bind]
      rfl
  · rw [if_pos (by omega), if_neg (by omega)]
    rfl

/-! The whole. -/

theorem readParams_closed (text : s.toList = front ++ ')' :: back) (fuel : Nat) :
    readParams s (fuel + 1) (width front) = .ok ([], width (front ++ [')'])) := by
  have first : (bytesOf s)[width front]? = some (byte ')') := by
    rw [bytesOf_eq, text, getElem?_encode, head?_encode_iff (by decide)]
    rfl
  have closing : width [')'] = 1 := by decide
  rw [readParams, first]
  simp [width_append, closing]

theorem readParams_open (text : s.toList = front ++ back) (opened : back.head? ≠ some ')')
    (fuel : Nat) :
    readParams s (fuel + 1) (width front) = (do
      let (t, next) ← readType s (width front)
      let (ts, stop) ← readParams s fuel next
      return (t :: ts, stop)) := by
  have first : (bytesOf s)[width front]? = (encode back).head? := by
    rw [bytesOf_eq, text, getElem?_encode]
  have other : (encode back).head? ≠ some (byte ')') := by
    rw [ne_eq, head?_encode_iff (by decide)]
    exact opened
  rw [readParams, first]
  cases head : (encode back).head? with
  | none =>
    have ended : back = [] := by
      cases back with
      | nil => rfl
      | cons c cs =>
        obtain ⟨b, bs, bytes⟩ := exists_head c
        simp [encode, bytes] at head
    rw [readType_eq text, ended]
    rfl
  | some b =>
    have differs : b ≠ byte ')' := by
      rintro rfl
      exact other head
    simp only [if_neg differs]

theorem readParams_eq (text : s.toList = front ++ back) (fuel : Nat) :
    readParams s (fuel + 1) (width front) =
      (MethodType.scanParams fuel back).elim (.error .malformed)
        fun r => .ok (r.1, width (front ++ r.1.flatMap FieldType.descriptorChars ++ [')'])) := by
  induction fuel generalizing front back with
  | zero =>
    by_cases closed : back.head? = some ')'
    · obtain ⟨cs, rfl⟩ := List.head?_eq_some_iff.mp closed
      rw [readParams_closed text]
      simp [MethodType.scanParams]
    · rw [readParams_open text closed, readType_eq text, MethodType.scanParams.eq_2]
      · cases FieldType.scan 0 back <;> rfl
      · rintro cs rfl
        exact closed rfl
  | succ fuel ih =>
    by_cases closed : back.head? = some ')'
    · obtain ⟨cs, rfl⟩ := List.head?_eq_some_iff.mp closed
      rw [readParams_closed text]
      simp [MethodType.scanParams]
    · rw [readParams_open text closed, readType_eq text, MethodType.scanParams.eq_3]
      · cases read : FieldType.scan 0 back with
        | none => rfl
        | some r =>
          obtain ⟨t, rest⟩ := r
          obtain ⟨rfl, -, -⟩ := FieldType.scan_inv read (Nat.zero_le _)
          rw [← List.append_assoc] at text
          have others := ih text
          simp only [Option.elim, bind, Except.bind, others]
          cases MethodType.scanParams fuel rest with
          | none => rfl
          | some r => simp [pure, Except.pure]
      · rintro cs rfl
        exact closed rfl

theorem readResult_eq (text : s.toList = front ++ back) :
    readResult s (width front) =
      (MethodType.parseResult? back).elim (.error .malformed) .ok := by
  have all : (bytesOf s).length = width (front ++ back) := by
    rw [bytesOf_eq, text, length_encode]
  have behind : cut s (width front) (bytesOf s).length = .ok (String.ofList back) := by
    have parts : s.toList = front ++ (back ++ []) := by simpa using text
    rw [all]
    exact cut_append parts
  have alone : (String.ofList back).toList = [] ++ back := String.toList_ofList
  have read := readType_eq alone
  rw [show width [] = 0 from rfl] at read
  rw [readResult, behind]
  by_cases void : back = ['V']
  · subst void
    rfl
  · have other : String.ofList back ≠ "V" := by
      intro same
      exact void (by simpa using congrArg String.toList same)
    simp only [bind, Except.bind, if_neg other]
    rw [read, MethodType.parseResult?_of_ne void, FieldType.parse?]
    cases scanned : FieldType.scan 0 back with
    | none => rfl
    | some r =>
      obtain ⟨t, rest⟩ := r
      obtain ⟨rfl, -, -⟩ := FieldType.scan_inv scanned (Nat.zero_le _)
      have long : (bytesOf (String.ofList (t.descriptorChars ++ rest))).length =
          width t.descriptorChars + width rest := by
        rw [bytesOf_eq, String.toList_ofList, length_encode, width_append]
      simp only [Option.elim, List.nil_append, long]
      cases rest with
      | nil => simp [width, pure, Except.pure]
      | cons c cs =>
        have positive := c.utf8Size_pos
        rw [if_neg (by rw [width_cons]; omega)]
        rfl

/-- Reading by byte offsets and reading by characters agree. -/
theorem readMethodType_eq (s : String) :
    readMethodType s = (MethodType.parse? s.toList).elim (.error .malformed) .ok := by
  have first : (bytesOf s)[0]? = some (byte '(') ↔ s.toList.head? = some '(' := by
    rw [← List.head?_eq_getElem?, bytesOf_eq, head?_encode_iff (by decide)]
  rw [readMethodType]
  by_cases opened : s.toList.head? = some '('
  · obtain ⟨cs, text⟩ := List.head?_eq_some_iff.mp opened
    have paren : width ['('] = 1 := by decide
    have long : (bytesOf s).length = width cs + 1 := by
      rw [bytesOf_eq, text, length_encode, width_cons, utf8Size_ascii (by decide), Nat.add_comm]
    have inside : s.toList = ['('] ++ cs := text
    have params := readParams_eq inside (width cs)
    rw [paren, ← long, MethodType.scanParams_of_length_le (length_le_width cs)] at params
    rw [if_neg (by simpa using first.mpr opened), params, text, MethodType.parse?]
    cases scanned : MethodType.scanParams cs.length cs with
    | none => rfl
    | some r =>
      obtain ⟨ts, rest⟩ := r
      obtain ⟨chars, -⟩ := MethodType.scanParams_inv scanned
      have parts : s.toList = ['('] ++ ts.flatMap FieldType.descriptorChars ++ [')'] ++ rest := by
        simp [text, chars]
      have result := readResult_eq parts
      simp only [Option.elim, bind, Except.bind, result]
      cases MethodType.parseResult? rest <;> rfl
  · have refused : MethodType.parse? s.toList = none := by
      rw [MethodType.parse?.eq_2]
      rintro cs same
      exact opened (by rw [same]; rfl)
    rw [if_pos (fun same => opened (first.mp same)), refused]
    rfl

end ManagedRuntime.Offsets

namespace ManagedRuntime.MethodType

/-- Method descriptors are the texts made of field descriptors between parentheses and of what is
returned. What is read is the only way to make the text of such parts, and what is written is read
back. Reading by byte offsets gives the same and cuts between characters only. -/
theorem methodDescriptors_exact (s : String) :
    ((∃ m, parse s = .ok m) ↔ ∃ params result, Splits s params result) ∧
      (∀ m, parse s = .ok m → m.descriptor = s ∧
        Splits s (m.params.map FieldType.descriptor) (resultText m.result) ∧
        ∀ params result, Splits s params result →
          params = m.params.map FieldType.descriptor ∧ result = resultText m.result ∧
            params.map FieldType.parse = m.params.map .ok) ∧
      (∀ m : MethodType, (∀ t ∈ m.params, FieldType.IsDescriptor t.descriptor) →
        (∀ t ∈ m.result, FieldType.IsDescriptor t.descriptor) → parse m.descriptor = .ok m) ∧
      (∀ m, Offsets.readMethodType s = .ok m ↔ parse s = .ok m) ∧
      Offsets.readMethodType s ≠ .error .brokenCharacter := by
  refine ⟨?accepted, ?split, ?written, ?bytes, ?whole⟩
  case accepted =>
    constructor
    · rintro ⟨m, read⟩
      exact ⟨_, _, splits_iff.mpr ⟨m, read, rfl, rfl⟩⟩
    · rintro ⟨params, result, parts⟩
      obtain ⟨m, read, -, -⟩ := splits_iff.mp parts
      exact ⟨m, read⟩
  case split =>
    intro m read
    obtain ⟨text, formed, -⟩ := parse_eq_ok_iff.mp read
    refine ⟨text, splits_iff.mpr ⟨m, read, rfl, rfl⟩, ?_⟩
    intro params result parts
    obtain ⟨m', read', rfl, rfl⟩ := splits_iff.mp parts
    have same : m' = m := Except.ok.inj (read'.symm.trans read)
    subst same
    refine ⟨rfl, rfl, ?_⟩
    rw [List.map_map]
    apply List.map_congr_left
    intro t member
    exact FieldType.parse_eq_ok_iff.mpr ⟨rfl, formed t member⟩
  case written =>
    intro m params result
    apply parse_eq_ok_iff.mpr
    refine ⟨rfl, ?_, ?_⟩
    · intro t member
      exact FieldType.isDescriptor_descriptor_iff.mp (params t member)
    · intro t member
      exact FieldType.isDescriptor_descriptor_iff.mp (result t member)
  case bytes =>
    intro m
    rw [Offsets.readMethodType_eq, parse]
    cases parse? s.toList <;> simp
  case whole =>
    rw [Offsets.readMethodType_eq]
    cases parse? s.toList <;> simp

end ManagedRuntime.MethodType
