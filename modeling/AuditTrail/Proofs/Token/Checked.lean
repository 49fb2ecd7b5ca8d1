import AuditTrail.Proofs.Except
import AuditTrail.Proofs.Token.RoundTrip
import AuditTrail.Token.Checked

/-! Tokens made with checks survive the wire, but for one thing: how many texts a list has is not
checked, and the count on the wire has 32 bits. All texts are written all the same, so what is read
back of a longer list is its first texts, as many as are left of the count. -/

namespace AuditTrail.Token

def listed : Token → List String
  | execArgs args => args
  | execEnv settings => settings
  | _ => []

/-- The token with as many of its listed texts as the count in 32 bits says. -/
def wrapped : Token → Token
  | execArgs args => execArgs (args.take (args.length % 4294967296))
  | execEnv settings => execEnv (settings.take (settings.length % 4294967296))
  | token => token

theorem take_mod_eq_iff (ss : List α) {n : Nat} (pos : 0 < n) :
    ss.take (ss.length % n) = ss ↔ ss.length < n := by
  constructor
  · intro h
    have kept : ss.length % n = ss.length := by
      rw [← List.length_take_of_le (Nat.mod_le ss.length n), h]
    exact kept ▸ Nat.mod_lt ss.length pos
  · intro h
    rw [Nat.mod_eq_of_lt h, List.take_length]

theorem wrapped_eq_iff (token : Token) :
    token.wrapped = token ↔ token.listed.length < 4294967296 := by
  cases token with
  | execArgs args =>
    rw [wrapped, execArgs.injEq]
    exact take_mod_eq_iff args (by decide)
  | execEnv settings =>
    rw [wrapped, execEnv.injEq]
    exact take_mod_eq_iff settings (by decide)
  | _ => simp [wrapped, listed]

theorem write_texts (ss : List String) :
    ∃ rest, Field.write .texts ss =
      Field.write .texts (ss.take (ss.length % 4294967296)) ++ rest := by
  have count : UInt32.ofNat (ss.take (ss.length % 4294967296)).length = UInt32.ofNat ss.length := by
    rw [List.length_take_of_le (Nat.mod_le _ _)]
    exact UInt32.ofNat_mod_size
  refine ⟨(ss.drop (ss.length % 4294967296)).flatMap fun s => Text.bytes s ++ [0], ?_⟩
  rw [Field.write, Field.write, count, List.append_assoc, ← List.flatMap_append,
    List.take_append_drop]

theorem encode_execArgs (args : List String) :
    (execArgs args).encode = Kind.execArgs.tag :: Field.write .texts args :=
  congrArg (List.cons _) (List.append_nil _)

theorem encode_execEnv (settings : List String) :
    (execEnv settings).encode = Kind.execEnv.tag :: Field.write .texts settings :=
  congrArg (List.cons _) (List.append_nil _)

theorem encode_eq_wrapped (token : Token) :
    ∃ rest, token.encode = token.wrapped.encode ++ rest := by
  cases token with
  | execArgs args =>
    obtain ⟨rest, written⟩ := write_texts args
    refine ⟨rest, ?_⟩
    rw [wrapped, encode_execArgs, encode_execArgs, written, List.cons_append]
  | execEnv settings =>
    obtain ⟨rest, written⟩ := write_texts settings
    refine ⟨rest, ?_⟩
    rw [wrapped, encode_execEnv, encode_execEnv, written, List.cons_append]
  | _ => exact ⟨[], (List.append_nil _).symm⟩

theorem decode_of_canonical_wrapped {token : Token} (h : token.wrapped.Canonical) :
    decode token.encode = .ok (token.wrapped, token.wrapped.encodedLength) := by
  obtain ⟨rest, whole⟩ := encode_eq_wrapped token
  rw [whole, decode_append h]

namespace Checked

theorem hasZero_iff (s : String) : hasZero s = true ↔ '\x00' ∈ s.toList := by
  simp [hasZero]

theorem text_eq_ok_iff {field s t : String} :
    text field s = .ok t ↔ Field.Canonical .text s ∧ s = t := by
  rw [text, ite_error_eq_ok, ite_error_eq_ok, hasZero_iff, Nat.not_lt, Except.ok.injEq,
    and_left_comm, ← and_assoc]
  rfl

theorem texts_eq_ok_iff {field : String} {ss ts : List String} :
    texts field ss = .ok ts ↔ (∀ s ∈ ss, '\x00' ∉ s.toList) ∧ ss = ts := by
  rw [texts, ite_error_eq_ok, Except.ok.injEq]
  simp [hasZero_iff]

theorem map_text_eq_ok {field s : String} {f : String → Token} {token : Token}
    (h : (text field s).map f = .ok token) : Field.Canonical .text s ∧ f s = token := by
  obtain ⟨t, made, rfl⟩ := map_eq_ok.1 h
  obtain ⟨carried, rfl⟩ := text_eq_ok_iff.1 made
  exact ⟨carried, rfl⟩

theorem canonical_take {ss : List String} (h : ∀ s ∈ ss, '\x00' ∉ s.toList) :
    Field.Canonical .texts (ss.take (ss.length % 4294967296)) := by
  refine ⟨?_, fun s member => h s (List.mem_of_mem_take member)⟩
  rw [List.length_take_of_le (Nat.mod_le _ _)]
  exact Nat.mod_lt _ (by decide)

inductive Call
  | header (fields : Header)
  | trailer (size : UInt32)
  | arg32 (index : UInt8) (value : UInt32) (label : String)
  | arg64 (index : UInt8) (value : UInt64) (label : String)
  | arbitrary (format : PrintFormat) (values : Elements)
  | attributes (fields : Attributes)
  | exit (status value : UInt32)
  | execArgs (args : List String)
  | execEnv (settings : List String)
  | file (seconds milliseconds : UInt32) (name : String)
  | groups (ids : List UInt32)
  | inAddr (host : Address)
  | ipc (object : IpcObject) (id : UInt32)
  | port (number : UInt16)
  | opaqueBytes (data : List UInt8)
  | path (name : String)
  | process (who : Identity) (terminal : Address)
  | return32 (status : UInt8) (value : UInt32)
  | return64 (status : UInt8) (value : UInt64)
  | sequence (number : UInt32)
  | socketInet (number : UInt16) (host : Address)
  | socketUnix (name : String)
  | subject (who : Identity) (terminal : Address)
  | freeText (content : String)

def Call.run : Call → Except FieldError Token
  | .header fields => .ok (.header fields)
  | .trailer size => .ok (Checked.trailer size)
  | .arg32 index value label => Checked.arg32 index value label
  | .arg64 index value label => Checked.arg64 index value label
  | .arbitrary format values => Checked.arbitrary format values
  | .attributes fields => .ok (.attributes fields)
  | .exit status value => .ok (.exit status value)
  | .execArgs args => Checked.execArgs args
  | .execEnv settings => Checked.execEnv settings
  | .file seconds milliseconds name => Checked.file seconds milliseconds name
  | .groups ids => Checked.groups ids
  | .inAddr host => .ok (Checked.inAddr host)
  | .ipc object id => .ok (Checked.ipc object id)
  | .port number => .ok (.port number)
  | .opaqueBytes data => Checked.opaqueBytes data
  | .path name => Checked.path name
  | .process who terminal => .ok (Checked.process who terminal)
  | .return32 status value => .ok (.return32 status value)
  | .return64 status value => .ok (.return64 status value)
  | .sequence number => .ok (.sequence number)
  | .socketInet number host => .ok (Checked.socketInet number host)
  | .socketUnix name => Checked.socketUnix name
  | .subject who terminal => .ok (Checked.subject who terminal)
  | .freeText content => Checked.freeText content

theorem canonical_wrapped {call : Call} {token : Token} (h : call.run = .ok token) :
    token.wrapped.Canonical := by
  cases call with
  | arg32 index value label =>
    obtain ⟨carried, rfl⟩ := map_text_eq_ok h
    exact ⟨rfl, trivial, trivial, carried, trivial⟩
  | arg64 index value label =>
    obtain ⟨carried, rfl⟩ := map_text_eq_ok h
    exact ⟨rfl, trivial, trivial, carried, trivial⟩
  | arbitrary format values =>
    obtain ⟨fits, ⟨⟩⟩ := ite_error_eq_ok.1 h
    have named : (Token.arbitrary format.normalized values).normalized =
        .arbitrary format.normalized values := by
      simp [normalized, PrintFormat.normalized]
    exact ⟨named, trivial, Nat.le_of_not_lt fits, trivial⟩
  | execArgs args =>
    obtain ⟨ss, made, rfl⟩ := map_eq_ok.1 h
    obtain ⟨zeroless, rfl⟩ := texts_eq_ok_iff.1 made
    exact ⟨rfl, canonical_take zeroless, trivial⟩
  | execEnv settings =>
    obtain ⟨ss, made, rfl⟩ := map_eq_ok.1 h
    obtain ⟨zeroless, rfl⟩ := texts_eq_ok_iff.1 made
    exact ⟨rfl, canonical_take zeroless, trivial⟩
  | file seconds milliseconds name =>
    obtain ⟨carried, rfl⟩ := map_text_eq_ok h
    exact ⟨rfl, trivial, trivial, carried, trivial⟩
  | groups ids =>
    obtain ⟨fits, ⟨⟩⟩ := ite_error_eq_ok.1 h
    exact ⟨rfl, Nat.le_of_not_lt fits, trivial⟩
  | ipc object id =>
    cases h
    have named : (Token.ipc object.normalized id).normalized = .ipc object.normalized id := by
      simp [normalized, IpcObject.normalized]
    exact ⟨named, trivial, trivial, trivial⟩
  | opaqueBytes data =>
    obtain ⟨fits, ⟨⟩⟩ := ite_error_eq_ok.1 h
    exact ⟨rfl, Nat.le_of_not_lt fits, trivial⟩
  | path name =>
    obtain ⟨carried, rfl⟩ := map_text_eq_ok h
    exact ⟨rfl, carried, trivial⟩
  | socketUnix name =>
    obtain ⟨fits, made⟩ := ite_error_eq_ok.1 h
    obtain ⟨⟨zeroless, -⟩, rfl⟩ := map_text_eq_ok made
    exact ⟨rfl, trivial, ⟨zeroless, Nat.lt_of_not_le fits⟩, trivial⟩
  | freeText content =>
    obtain ⟨carried, rfl⟩ := map_text_eq_ok h
    exact ⟨rfl, carried, trivial⟩
  | inAddr host | process who host | subject who host | socketInet number host =>
    cases h
    cases host <;> exact ⟨rfl, by repeat' constructor⟩
  | _ =>
    cases h
    exact ⟨rfl, by repeat' constructor⟩

/-- What a checked constructor makes is read back as it is, unless it is a list of 2^32 texts or
more: of these the count, which wraps, says how many are read back, and the others are left
over. -/
theorem decode_of_run (call : Call) (token : Token) (h : call.run = .ok token) :
    decode token.encode = .ok (token.wrapped, token.wrapped.encodedLength) ∧
      (decode token.encode = .ok (token, token.encodedLength) ↔
        token.listed.length < 4294967296) := by
  have decoded := decode_of_canonical_wrapped (canonical_wrapped h)
  refine ⟨decoded, ?_⟩
  rw [decoded, ← wrapped_eq_iff]
  constructor
  · intro same
    exact congrArg Prod.fst (Except.ok.inj same)
  · intro same
    rw [same]

theorem decode_of_run_socketUnix :
    let name := String.ofList ('/' :: List.replicate 51 'é')
    (Call.socketUnix name).run = .ok (.socketUnix 1 name) ∧ name.utf8ByteSize = 103 ∧
      decode (Token.socketUnix 1 name).encode = .ok (.socketUnix 1 name, 107) := by
  intro name
  have fits : ¬Layout.socketPathWidth ≤ name.utf8ByteSize := by decide +kernel
  have made : (Call.socketUnix name).run = .ok (.socketUnix 1 name) := by
    have checked : text "socket path" name = .ok name :=
      text_eq_ok_iff.2 ⟨by decide +kernel, rfl⟩
    rw [Call.run, socketUnix, if_neg fits, checked]
    rfl
  have unlisted : (Token.socketUnix 1 name).listed = [] := rfl
  exact ⟨made, by decide +kernel, (decode_of_run _ _ made).2.2 (by simp [unlisted])⟩

theorem decode_of_length {args : List String} (h : ∀ s ∈ args, '\x00' ∉ s.toList)
    (length : args.length = 4294967296) :
    (Call.execArgs args).run = .ok (.execArgs args) ∧
      decode (Token.execArgs args).encode = .ok (.execArgs [], 5) ∧
      decode (Token.execArgs args).encode ≠
        .ok (.execArgs args, (Token.execArgs args).encodedLength) := by
  have made : (Call.execArgs args).run = .ok (.execArgs args) :=
    map_eq_ok.2 ⟨args, texts_eq_ok_iff.2 ⟨h, rfl⟩, rfl⟩
  have wrapped : (Token.execArgs args).wrapped = .execArgs [] := by
    rw [Token.wrapped, length]
    rfl
  have decoded := decode_of_canonical_wrapped (canonical_wrapped made)
  rw [wrapped] at decoded
  refine ⟨made, decoded, fun same => ?_⟩
  have whole : Token.execArgs [] = .execArgs args :=
    congrArg Prod.fst (Except.ok.inj (decoded.symm.trans same))
  rw [← Token.execArgs.inj whole] at length
  cases length

/-- The constructor admits 2^32 arguments, of which none is read back. -/
theorem decode_execArgs_wrapped :
    (Call.execArgs (List.replicate 4294967296 "")).run =
        .ok (.execArgs (List.replicate 4294967296 "")) ∧
      decode (Token.execArgs (List.replicate 4294967296 "")).encode = .ok (.execArgs [], 5) ∧
      decode (Token.execArgs (List.replicate 4294967296 "")).encode ≠
        .ok (.execArgs (List.replicate 4294967296 ""),
          (Token.execArgs (List.replicate 4294967296 "")).encodedLength) := by
  refine decode_of_length (fun s member => ?_) List.length_replicate
  rw [List.eq_of_mem_replicate member]
  decide

end Checked

end AuditTrail.Token
