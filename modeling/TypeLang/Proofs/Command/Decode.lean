import TypeLang.Command.Run
import TypeLang.Proofs.Codec.Stream

namespace TypeLang.Command

open Read

section

variable {α β : Type}

theorem run_bind_of_ok {x : Course α} {r r' : Report} {a : α} (h : x.run r = (.ok a, r'))
    (f : α → Course β) : (x >>= f).run r = (f a).run r' := by
  have unfolded (k : Except Halt α → StateM Report (Except Halt β)) :
      (x.run >>= k) r = k (x.run r).1 (x.run r).2 := rfl
  rw [ExceptT.run_bind, unfolded, h]

theorem run_forIn_print (text : α → String) (l : List α) (r : Report) :
    (forIn l PUnit.unit fun a _ => do
        print (text a)
        return ForInStep.yield PUnit.unit : Course PUnit).run r =
      (.ok (), { r with output := r.output ++ String.join (l.map (text · ++ "\n")) }) := by
  induction l generalizing r with
  | nil =>
    rw [List.map_nil, String.join_nil, String.append_empty]
    rfl
  | cons a l ih =>
    have printed : (do print (text a); return ForInStep.yield PUnit.unit : Course _).run r =
        (.ok (.yield PUnit.unit), r.print (text a)) := rfl
    rw [List.forIn_cons, run_bind_of_ok printed]
    dsimp only
    rw [ih, List.map_cons, String.join_cons, ← String.append_assoc, ← String.append_assoc]
    rfl

end

def valueText (json : Bool) (start : Nat) (v : Value) : String :=
  if json then v.toTree.pretty else s!"@{start}: " ++ v.renderFull

theorem exists_runDecode {scene : Scene} {schema payload : String} {json : Bool} {r r' : Report}
    {s : Layered} {c : Codec} {bytes : ByteArray} (hs : (load scene schema).run r = (.ok s, r'))
    (hc : Codec.ofSchema s.schema {} = .ok c) (hb : scene.file payload = .ok bytes) :
    let stream := c.decodeStream (.ofBytes bytes)
    ∃ r'', (runDecode scene schema payload json).run r =
        (match stream.fault with
          | none => .ok none
          | some (.crash index length) => .error (.crashed (crashMessage index length))
          | some f =>
            .error (.failed s!"decoding stopped at byte {stream.cursor.pos}: {f.message}"), r'') ∧
      r''.output = r'.output ++
        String.join (stream.items.map fun (start, v) => valueText json start v ++ "\n") := by
  intro stream
  have codec : (orEnd PlanFault.message (Codec.ofSchema s.schema {})).run r' = (.ok c, r') := by
    rw [hc]
    rfl
  have file (r : Report) : (orEnd (about payload) (scene.file payload)).run r = (.ok bytes, r) := by
    rw [hb]
    rfl
  have noted (log : Log) (r : Report) : (note log).run r = (.ok (), r.note log) := rfl
  let told := (r'.note c.ofSchemaLog).note (Codec.unpackLog stream.cursor.unpacked)
  have printed := run_forIn_print (fun item : Nat × Value => valueText json item.1 item.2)
    stream.items told
  refine ⟨{ told with output := _ }, ?_, rfl⟩
  rw [runDecode, run_bind_of_ok hs, run_bind_of_ok codec, run_bind_of_ok (noted _ _),
    run_bind_of_ok (file _), run_bind_of_ok (noted _ _)]
  refine (run_bind_of_ok printed _).trans ?_
  cases stream.fault with
  | none => rfl
  | some f => cases f <;> rfl

/-- Every decoding gives back what it has read where it fails, and else moves onwards. So decoding
value by value comes to an end, with all bytes of the payload accounted for. As a task it prints the
values, and what it says about a fault is where the values end. It may also crash, but never with a
codec whose plans have the flags words that they look up, as they do where no entry has two flags
words of one name. -/
theorem decode_accounted (c : Codec) :
    (AllOrNothing c.decodeAny ∧ (∀ key, AllOrNothing (c.decodeAs key)) ∧
      (∀ key, AllOrNothing (c.decodeBare key)) ∧
      ∀ method, AllOrNothing (c.decodeResult method)) ∧
    (c.Complete → c.Crashless) ∧
    (∀ s config unpack, Codec.ofSchema s config unpack = .ok c →
      (∀ e ∈ s.entries, ((e.arguments.filter (·.type = .flags)).map (·.name)).Nodup) →
      c.Complete) ∧
    ∀ bytes, let stream := c.decodeStream (.ofBytes bytes)
      c.Accounted bytes stream ∧ (c.Complete → ∀ f ∈ stream.fault, ¬ f.IsCrash) ∧
      ∀ scene schema payload json r r' s, (load scene schema).run r = (.ok s, r') →
        Codec.ofSchema s.schema {} = .ok c → scene.file payload = .ok bytes →
        ∃ r'', (runDecode scene schema payload json).run r =
            (match stream.fault with
              | none => .ok none
              | some (.crash index length) => .error (.crashed (crashMessage index length))
              | some f =>
                .error (.failed s!"decoding stopped at byte {stream.cursor.pos}: {f.message}"),
              r'') ∧
          r''.output = r'.output ++
            String.join (stream.items.map fun (start, v) => valueText json start v ++ "\n") := by
  refine ⟨c.allOrNothing_decode, Codec.Complete.crashless,
    fun s config unpack hc flags => (Codec.ofSchema_eq_ok hc).complete flags, fun bytes => ?_⟩
  have accounted := c.accounted_decodeStream bytes
  refine ⟨accounted, fun complete f hf => ?_,
    fun _ _ _ _ _ _ _ hs hc hb => exists_runDecode hs hc hb⟩
  obtain ⟨last, -, -, stops⟩ := accounted.tiles
  exact stops.not_isCrash complete.crashless hf

def twiceScene : Scene where
  file path := .ok (if path = "twice.tl" then "twice#1 a:# a:# x:a.0?int = Twice;".toUTF8
    else Codec.twiceBytes)
  input := []

/-- Two flags words of one name make decoding crash, so the payload is neither decoded up to its end
nor refused at an offset. -/
theorem decode_crashes_twice : Codec.ofSchema Codec.twiceSchema {} = .ok Codec.twiceCodec ∧
    (Codec.twiceCodec.decodeStream (.ofBytes Codec.twiceBytes)).fault = some (.crash 1 1) ∧
    ((runDecode twiceScene "twice.tl" "twice.bin" false).run .empty).1 =
      .error (.crashed (crashMessage 1 1)) :=
  ⟨Codec.ofSchema_twice, rfl, by decide +kernel⟩

def oddPayload : ByteArray := ⟨#[0xb5, 0x75, 0x72, 0x99, 0]⟩

def bareScene : Scene where
  file path := .ok (if path = "none.tl" then .empty else oddPayload)
  input := []

def bareCodec : Codec := ⟨{}, Deflate.unpack, [], []⟩

theorem decode_accounted_bare :
    let stream : Stream := ⟨[(0, .bool true)], some (.truncated 4 1), ⟨oddPayload, 4, []⟩⟩
    bareCodec.Crashless ∧ bareCodec.Accounted oddPayload stream ∧
    ∃ r' r'', (load bareScene "none.tl").run .empty = (.ok ⟨0, .of [] [] rfl⟩, r') ∧
      (runDecode bareScene "none.tl" "odd" false).run .empty =
        (.error (.failed s!"decoding stopped at byte 4: {(ReadFault.truncated 4 1).message}"),
          r'') ∧
      r''.output = r'.output ++ String.join [valueText false 0 (.bool true) ++ "\n"] := by
  obtain ⟨r', hs⟩ : ∃ r', (load bareScene "none.tl").run .empty = (.ok ⟨0, .of [] [] rfl⟩, r') :=
    ⟨_, by rfl⟩
  obtain ⟨-, crashless, complete, account⟩ := decode_accounted bareCodec
  obtain ⟨accounted, -, told⟩ := account oddPayload
  obtain ⟨r'', ending, output⟩ := told bareScene "none.tl" "odd" false .empty r' _ hs rfl rfl
  have whole := complete (.of [] [] rfl) {} _ rfl fun _ he => by cases he
  exact ⟨crashless whole, accounted, r', r'', hs, ending, output⟩

end TypeLang.Command
