import Ovlive.Impl.Client.Proto

/-!
# What the clients decode

Every decoder of the generated module reads from a message's bytes what the
contract says its fields stand for, in whatever order they stand and whatever
else stands between them. A pass of the loop takes what the fields before it
say to what they say with one more (`decodeField_eq`); the rest is the rule of
the loop (`Wire.decode_render`).
-/

namespace OV.Impl

open Wire

variable [Codec] {fs pre post : List Field} {f : Field} {long : Nat} {rest : Bytes}

theorem skipField_eq {M : Type} (hok : f.Ok) (m : M) : skipField f.tag long m (f.payload ++ rest) = some (m, rest) := by
  rw [skipField, Field.tag_mod, into_eq (skip_payload hok long)]

omit [Codec] in
theorem AtMostOne.before {nums : List Nat} (h : AtMostOne nums (pre ++ f :: post)) (hf : f.num ∈ nums) :
    ∀ g ∈ pre, g.num ∉ nums := by
  intro g hg hnum
  rw [AtMostOne, List.filter_append, List.filter_cons_of_pos (by simpa using hf), List.length_append,
    List.length_cons] at h
  have hpos : 0 < (pre.filter fun g => g.num ∈ nums).length :=
    List.length_pos_of_mem (List.mem_filter.mpr ⟨hg, by simpa using hnum⟩)
  omega

/-- Decoders nest three deep. -/
theorem guardDepth_eq {M : Type} {r : Read M} (h : long ≤ 3) : guardDepth long r = r := by
  have := Codec.le_recursionLimit
  exact if_neg (by omega)

/-- A decoder whose passes take what the fields before say to what they say with one more. -/
theorem guarded_render {M : Type} {step : Nat → M → Read M} {of : List Field → M} (hok : ∀ f ∈ fs, f.Ok)
    (hstep : ∀ pre f post rest, fs = pre ++ f :: post → f ∈ fs →
      step f.tag (of pre) (f.payload ++ rest) = some (of (pre ++ [f]), rest))
    (hlong : long ≤ 3) (rest : Bytes) :
    guardDepth long (Wire.decode step (of []) (some (render fs).length)) (render fs ++ rest) = some (of fs, rest) := by
  rw [guardDepth_eq hlong]
  exact Wire.decode_render hok (fun pre f post _ hfs => hstep pre f post _ hfs (by simp [hfs])) rest

namespace VehicleState

theorem decodeField_eq (hok : f.Ok) (hkind : ∀ k, kind f.num = some k → f.Is k) :
    decodeField long f.tag (ofFields pre) (f.payload ++ rest) = some (ofFields (pre ++ [f]), rest) := by
  rw [decodeField, Field.tag_div]
  generalize hn : f.num = n at hkind
  split
  all_goals first
    | rw [into_eq (read_string hok (hkind .string rfl))]; simp [ofFields, scalar_concat, hn]
    | rw [into_eq (read_int32 hok (hkind .int32 rfl))]; simp [ofFields, scalar_concat, hn]
    | rw [into_eq (read_double hok (hkind .double rfl))]; simp [ofFields, scalar_concat, hn]
    | rw [into_eq (read_float hok (hkind .float rfl))]; simp [ofFields, scalar_concat, hn]
    | rw [into_eq (read_bool (hkind .bool rfl))]; simp [ofFields, scalar_concat, hn]
    | rw [skipField_eq hok]; simp_all [ofFields, scalar_concat]

theorem decode_render (h : Typed fs) (hlong : long ≤ 3) (rest : Bytes) :
    decode long (some (render fs).length) (render fs ++ rest) = some (ofFields fs, rest) :=
  guarded_render (fun f hf => (h f hf).1) (fun _ f _ _ _ hf => decodeField_eq (h f hf).1 (h f hf).2) hlong rest

end VehicleState

namespace VehicleMove

theorem decodeField_eq (hok : f.Ok) (hkind : ∀ k, kind f.num = some k → f.Is k) :
    decodeField long f.tag (ofFields pre) (f.payload ++ rest) = some (ofFields (pre ++ [f]), rest) := by
  rw [decodeField, Field.tag_div]
  generalize hn : f.num = n at hkind
  split
  all_goals first
    | rw [into_eq (read_string hok (hkind .string rfl))]; simp [ofFields, scalar_concat, hn]
    | rw [into_eq (read_int32 hok (hkind .int32 rfl))]; simp [ofFields, scalar_concat, hn]
    | rw [into_eq (read_double hok (hkind .double rfl))]; simp [ofFields, scalar_concat, hn]
    | rw [into_eq (read_float hok (hkind .float rfl))]; simp [ofFields, scalar_concat, hn]
    | rw [into_eq (read_bool (hkind .bool rfl))]; simp [ofFields, scalar_concat, hn]
    | rw [skipField_eq hok]; simp_all [ofFields, scalar_concat]

theorem decode_render (h : Typed fs) (hlong : long ≤ 3) (rest : Bytes) :
    decode long (some (render fs).length) (render fs ++ rest) = some (ofFields fs, rest) :=
  guarded_render (fun f hf => (h f hf).1) (fun _ f _ _ _ hf => decodeField_eq (h f hf).1 (h f hf).2) hlong rest

end VehicleMove

namespace ServerError

theorem decodeField_eq (hok : f.Ok) (hkind : ∀ k, kind f.num = some k → f.Is k) :
    decodeField long f.tag (ofFields pre) (f.payload ++ rest) = some (ofFields (pre ++ [f]), rest) := by
  rw [decodeField, Field.tag_div]
  generalize hn : f.num = n at hkind
  split
  case h_1 => rw [into_eq (read_uint32 (hkind .uint32 rfl))]; simp [ofFields, scalar_concat, hn]
  case h_2 => rw [into_eq (read_string hok (hkind .string rfl))]; simp [ofFields, scalar_concat, hn]
  case h_3 => rw [skipField_eq hok]; simp_all [ofFields, scalar_concat]

theorem decode_render (h : Typed fs) (hlong : long ≤ 3) (rest : Bytes) :
    decode long (some (render fs).length) (render fs ++ rest) = some (ofFields fs, rest) :=
  guarded_render (fun f hf => (h f hf).1) (fun _ f _ _ _ hf => decodeField_eq (h f hf).1 (h f hf).2) hlong rest

end ServerError

namespace Update

theorem decodeField_eq (h : Typed fs) (hf : f ∈ fs) (hlong : long ≤ 2) :
    decodeField long f.tag (ofFields pre) (f.payload ++ rest) = some (ofFields (pre ++ [f]), rest) := by
  obtain ⟨hkinds, hentered, hmoved⟩ := h
  obtain ⟨hok, hkind⟩ := hkinds f hf
  rw [decodeField, Field.tag_div]
  generalize hn : f.num = n at hkind
  split
  case h_1 =>
    obtain ⟨ms, rfl, hms⟩ := hentered f hf hn
    rw [into_eq (embedded_msg hok.2 (VehicleState.decode_render hms (by omega) rest) 1)]
    simp [ofFields, scalar_concat, repeated_concat, hn, Field.fields]
  case h_2 =>
    obtain ⟨ms, rfl, hms⟩ := hmoved f hf hn
    rw [into_eq (embedded_msg hok.2 (VehicleMove.decode_render hms (by omega) rest) 2)]
    simp [ofFields, scalar_concat, repeated_concat, hn, Field.fields]
  case h_3 =>
    rw [into_eq (read_string hok (hkind .string rfl))]
    simp [ofFields, scalar_concat, repeated_concat, hn]
  case h_4 =>
    rw [into_eq (read_bool (hkind .bool rfl))]
    simp [ofFields, scalar_concat, repeated_concat, hn]
  case h_5 =>
    rw [skipField_eq hok]
    simp_all [ofFields, scalar_concat, repeated_concat]

theorem decode_render (h : Typed fs) (hlong : long ≤ 2) (rest : Bytes) :
    decode long (some (render fs).length) (render fs ++ rest) = some (ofFields fs, rest) :=
  guarded_render (fun f hf => (h.1 f hf).1) (fun _ _ _ _ _ hf => decodeField_eq h hf hlong) (by omega) rest

end Update

namespace ServerObject

omit [Codec] in
theorem ofFields_nil : ofFields [] = {} := by
  simp [ofFields]

theorem decodeField_eq (h : Typed fs) (hfs : fs = pre ++ f :: post) (hlong : long ≤ 1) :
    decodeField long f.tag (ofFields pre) (f.payload ++ rest) = some (ofFields (pre ++ [f]), rest) := by
  obtain ⟨hkinds, hupdate, herror, hone⟩ := h
  have hf : f ∈ fs := by simp [hfs]
  obtain ⟨hok, hkind⟩ := hkinds f hf
  have hbefore := fun hnum => (hfs ▸ hone).before (f := f) hnum
  rw [decodeField, Field.tag_div]
  generalize hn : f.num = n at hkind
  split
  case h_1 =>
    obtain ⟨ms, rfl, hms⟩ := hupdate f hf hn
    have hnone : ∀ g ∈ pre, g.num ≠ 1 := fun g hg heq => hbefore (by simp [hn]) g hg (by simp [heq])
    rw [into_eq (embedded_msg hok.2 (Update.decode_render hms (by omega) rest) 1)]
    simp [ofFields, last?_concat, repeated_concat, repeated_of_ne hnone, hn, Field.fields]
  case h_2 =>
    rw [into_eq (read_bool (hkind .bool rfl))]
    simp [ofFields, last?_concat, repeated_concat, hn]
  case h_3 =>
    obtain ⟨ms, rfl, hms⟩ := herror f hf hn
    have hnone : ∀ g ∈ pre, g.num ≠ 3 := fun g hg heq => hbefore (by simp [hn]) g hg (by simp [heq])
    rw [into_eq (embedded_msg hok.2 (ServerError.decode_render hms (by omega) rest) 3)]
    simp [ofFields, last?_concat, repeated_concat, repeated_of_ne hnone, hn, Field.fields]
  case h_4 =>
    rw [skipField_eq hok]
    simp_all [ofFields, last?_concat, repeated_concat]

theorem decode_buffer (h : Typed fs) : decode 0 none (render fs) = some (ofFields fs, []) := by
  rw [decode, guardDepth_eq (by omega), ← ofFields_nil]
  exact Wire.decode_buffer (fun f hf => (h.1 f hf).1) fun pre f post _ hfs => decodeField_eq h hfs (by omega)

end ServerObject

/-- The object a client decodes is what the contract says of the fields it was sent. -/
theorem decodeServer_render (h : ServerObject.Typed fs) : decodeServer (render fs) = some (ServerObject.ofFields fs) := by
  rw [decodeServer, ServerObject.decode_buffer h, Option.map_some]

/-- An update whose fields stand in another order, with fields no contract declares. -/
def strayFields : List Field :=
  [.varint 99 7, .msg 1 [.varint 4 1, .len 3 (utf8 "a"), .i32 98 [1, 2, 3, 4], .len 3 (utf8 "b")]]

omit [Codec] in
theorem decodeServer_render_stray :
    (@decodeServer standard (render strayFields)).map (fun o => o.update.map fun u => (u.left, u.isSnapshot)) =
      some (some (["a", "b"], true)) := by
  have hupdate : Update.Typed [.varint 4 1, .len 3 (utf8 "a"), .i32 98 [1, 2, 3, 4], .len 3 (utf8 "b")] := by
    refine ⟨?_, ?_, ?_⟩
    · intro f hf
      simp only [List.mem_cons, List.not_mem_nil, or_false] at hf
      rcases hf with rfl | rfl | rfl | rfl
      · exact ⟨⟨by decide, by decide⟩, fun _ hk => by cases hk; exact Nat.le_refl 1⟩
      · exact ⟨⟨by decide, by decide⟩, fun _ hk => by cases hk; exact ⟨"a", rfl⟩⟩
      · exact ⟨⟨by decide, by decide⟩, fun _ hk => by cases hk⟩
      · exact ⟨⟨by decide, by decide⟩, fun _ hk => by cases hk; exact ⟨"b", rfl⟩⟩
    · simp [Embeds, Field.num]
    · simp [Embeds, Field.num]
  have htyped : ServerObject.Typed strayFields := by
    refine ⟨?_, ?_, ?_, Nat.le_refl 1⟩
    · intro f hf
      simp only [strayFields, List.mem_cons, List.not_mem_nil, or_false] at hf
      rcases hf with rfl | rfl
      · exact ⟨⟨by decide, by decide⟩, fun _ hk => by cases hk⟩
      · exact ⟨⟨by decide, by decide +kernel⟩, fun _ hk => by cases hk⟩
    · intro f hf hnum
      simp only [strayFields, List.mem_cons, List.not_mem_nil, or_false] at hf
      rcases hf with rfl | rfl
      · cases hnum
      · exact ⟨_, rfl, hupdate⟩
    · simp [strayFields, Embeds, Field.num]
  rw [@decodeServer_render standard _ htyped]
  decide +kernel

end OV.Impl
