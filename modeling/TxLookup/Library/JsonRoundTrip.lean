import TxLookup.Library.JsonPieces

/-!
# What is written is read back

`json.loads` on the text of a value gives the value: for `json.dumps` with and
without `ensure_ascii`, at the end of a text or before a line end. The condition is
on the value: distinct keys, no integer beyond the digits `int` takes, floats that
`float` reads back. Every value `json.loads` returns meets it.
-/
namespace TxLookup.Library.JsonText

open PyText

section Values

variable (floatOf : PyStr → PyFloat) (chars : Nat → Prop)

/-- A float that a text can give. -/
def Known : PyFloat → Prop
  | .finite negative mantissa exponent => ∃ s, floatOf s = .finite negative mantissa exponent
  | _ => True

mutual

/-- Distinct keys, integers that `int` reads, floats that come from texts. -/
def Plain : Json → Prop
  | .int n => n.natAbs < 10 ^ maxStrDigits
  | .float x => Known floatOf x
  | .str s => ∀ c ∈ s, chars c
  | .arr items => PlainItems items
  | .obj fields => (Assoc.keys fields).Nodup ∧ PlainFields fields
  | .null | .bool _ => True

def PlainItems : List Json → Prop
  | [] => True
  | v :: vs => Plain v ∧ PlainItems vs

def PlainFields : List (PyStr × Json) → Prop
  | [] => True
  | (k, v) :: kvs => (∀ c ∈ k, chars c) ∧ Plain v ∧ PlainFields kvs

end

/-- What Python promises of the texts of floats. -/
structure FloatLaws (floatRepr : PyFloat → PyStr) : Prop where
  nan : floatRepr .nan = py "NaN"
  inf : floatRepr (.inf false) = py "Infinity"
  negInf : floatRepr (.inf true) = py "-Infinity"
  /-- The text is a numeral, and `float` reads the number back. -/
  back : ∀ s n m e, floatOf s = .finite n m e →
    scanNumber floatOf (floatRepr (.finite n m e)) = .ok (.float (.finite n m e), [])
  plain : ∀ x, ∀ c ∈ floatRepr x, 32 ≤ c ∧ c < 127

end Values

variable {floatOf : PyStr → PyFloat} {floatRepr : PyFloat → PyStr} {esc : Nat → PyStr}

/-! ## One level of the scanner -/

theorem scanOnce_str (fuel : Nat) (s : PyStr) : scanOnce floatOf (fuel + 1) (34 :: s) =
    (scanString (s.length + 1) 0 s).map fun p => (.str p.1, p.2) := rfl

theorem scanOnce_obj (fuel : Nat) (s : PyStr) : scanOnce floatOf (fuel + 1) (123 :: 34 :: s) =
    (scanMembers floatOf fuel (34 :: s)).map fun p => (toDict p.1, p.2) := rfl

theorem scanOnce_arr (fuel : Nat) {c : Nat} {s : PyStr} (hws : isWs c = false) (hc : c ≠ 93) :
    scanOnce floatOf (fuel + 1) (91 :: c :: s) =
      (scanItems floatOf fuel (c :: s)).map fun p => (.arr p.1, p.2) := by
  have hskip : skipWs (c :: s) = c :: s := List.dropWhile_cons_of_neg (by simp [hws])
  rw [scanOnce, if_neg (by decide), if_neg (by decide), if_pos rfl, hskip]
  split
  · next heq =>
    cases heq
    exact absurd rfl hc
  · rfl

/-- The text begins like a value: with no blank, no closing bracket and no mark. -/
def Opens (s : PyStr) : Prop := ∃ c t, s = c :: t ∧ isWs c = false ∧ c ≠ 93 ∧ c < 127

theorem Opens.skipWs {s : PyStr} (h : Opens s) : skipWs s = s := by
  obtain ⟨c, t, rfl, hws, -⟩ := h
  exact List.dropWhile_cons_of_neg (by simp [hws])

theorem Opens.append {s : PyStr} (h : Opens s) (t : PyStr) : Opens (s ++ t) := by
  obtain ⟨c, u, rfl, hws, hc⟩ := h
  exact ⟨c, u ++ t, rfl, hws, hc⟩

theorem scanItems_last {fuel : Nat} {s rest : PyStr} {v : Json}
    (h : scanOnce floatOf fuel s = .ok (v, 93 :: rest)) :
    scanItems floatOf (fuel + 1) s = .ok ([v], rest) := by
  rw [scanItems, h]
  rfl

theorem scanItems_more {fuel : Nat} {s t : PyStr} {v : Json}
    (h : scanOnce floatOf fuel s = .ok (v, 44 :: 32 :: t)) (ht : Opens t) :
    scanItems floatOf (fuel + 1) s = (scanItems floatOf fuel t).map fun p => (v :: p.1, p.2) := by
  have hskip : skipWs (32 :: t) = t := ht.skipWs
  rw [scanItems, h]
  show (scanItems floatOf fuel (skipWs (32 :: t))).map _ = _
  rw [hskip]

theorem scanMembers_last {fuel : Nat} {s t rest : PyStr} {k : PyStr} {v : Json}
    (hkey : scanString (s.length + 1) 0 s = .ok (k, 58 :: 32 :: t)) (ht : Opens t)
    (h : scanOnce floatOf fuel t = .ok (v, 125 :: rest)) :
    scanMembers floatOf (fuel + 1) (34 :: s) = .ok ([(k, v)], rest) := by
  have hskip : skipWs (32 :: t) = t := ht.skipWs
  have hvalue : scanOnce floatOf fuel (skipWs (32 :: t)) = .ok (v, 125 :: rest) := by rw [hskip, h]
  rw [scanMembers]
  show (scanString (s.length + 1) 0 s >>= _) = _
  rw [hkey]
  show (scanOnce floatOf fuel (skipWs (32 :: t)) >>= _) = _
  rw [hvalue]
  rfl

theorem scanMembers_more {fuel : Nat} {s t u : PyStr} {k : PyStr} {v : Json}
    (hkey : scanString (s.length + 1) 0 s = .ok (k, 58 :: 32 :: t)) (ht : Opens t)
    (h : scanOnce floatOf fuel t = .ok (v, 44 :: 32 :: u)) (hu : Opens u) :
    scanMembers floatOf (fuel + 1) (34 :: s) =
      (scanMembers floatOf fuel u).map fun p => ((k, v) :: p.1, p.2) := by
  have hskip : skipWs (32 :: t) = t := ht.skipWs
  have hskip' : skipWs (32 :: u) = u := hu.skipWs
  have hvalue : scanOnce floatOf fuel (skipWs (32 :: t)) = .ok (v, 44 :: 32 :: u) := by
    rw [hskip, h]
  rw [scanMembers]
  show (scanString (s.length + 1) 0 s >>= _) = _
  rw [hkey]
  show (scanOnce floatOf fuel (skipWs (32 :: t)) >>= _) = _
  rw [hvalue]
  show (scanMembers floatOf fuel (skipWs (32 :: u))).map _ = _
  rw [hskip']

/-! ## Numbers and literals at the front of a text -/

/-- A digit, or a minus before a digit. -/
inductive NumberHead : PyStr → Prop where
  | digit {c : Nat} (s : PyStr) (h : isDigit c = true) : NumberHead (c :: s)
  | minus {c : Nat} (s : PyStr) (h : isDigit c = true) : NumberHead (45 :: c :: s)

theorem wholePart_head {s : PyStr} {p : PyStr × PyStr} (h : wholePart s = some p) :
    ∃ c t, s = c :: t ∧ isDigit c = true := by
  cases s with
  | nil => cases h
  | cons c s =>
    refine ⟨c, s, rfl, ?_⟩
    rw [wholePart] at h
    split at h
    · next hc =>
      subst hc
      rfl
    · split at h
      · next hd => exact hd
      · cases h

theorem scanNumber_head {s : PyStr} {p : Json × PyStr} (h : scanNumber floatOf s = .ok p) :
    NumberHead s := by
  obtain ⟨whole, rest, hwhole, -, -⟩ := scanNumber_eq_ok h
  obtain ⟨c, t, hbody, hc⟩ := wholePart_head hwhole
  obtain ⟨hs, hsign⟩ := numberSign_spec s
  rw [hs, hbody]
  rcases hsign with hsign | hsign
  · rw [hsign]
    exact .digit t hc
  · rw [hsign]
    exact .minus t hc

theorem isDigit_iff {c : Nat} : isDigit c = true ↔ 48 ≤ c ∧ c ≤ 57 := by
  simp only [isDigit, Bool.and_eq_true, decide_eq_true_eq]

/-- No literal begins like a number. -/
theorem NumberHead.scanLiteral {s : PyStr} (h : NumberHead s) : scanLiteral s = none := by
  rw [JsonText.scanLiteral, List.findSome?_eq_none_iff]
  intro entry hentry
  have hheads : entry.1.head? = some 45 ∧ entry.1.tail.head? = some 73 ∨
      ∃ c ∈ entry.1.head?, 57 < c := by
    have hall : ∀ entry ∈ literals, entry.1.head? = some 45 ∧ entry.1.tail.head? = some 73 ∨
        entry.1.head?.any (fun c => 57 < c) = true := by decide
    refine (hall entry hentry).imp_right fun hany => ?_
    obtain ⟨c, hc, hlt⟩ := (Option.any_eq_true _ _).mp hany
    exact ⟨c, hc, of_decide_eq_true hlt⟩
  rw [if_neg]
  intro hfront
  obtain ⟨t, ht⟩ := List.isPrefixOf_iff_prefix.mp hfront
  generalize entry.1 = lit at *
  cases lit with
  | nil => rcases hheads with ⟨h, -⟩ | ⟨c, hc, -⟩ <;> contradiction
  | cons l lit =>
    cases h with
    | digit s hc =>
      rw [isDigit_iff] at hc
      rcases hheads with ⟨hminus, -⟩ | ⟨d, hd, hlt⟩
      · cases hminus
        injection ht with hhead
        omega
      · cases hd
        injection ht with hhead
        omega
    | minus s hc =>
      rw [isDigit_iff] at hc
      rcases hheads with ⟨-, hupper⟩ | ⟨d, hd, hlt⟩
      · injection ht with _ htail
        cases lit with
        | nil => cases hupper
        | cons l' lit =>
          cases hupper
          injection htail with hhead
          omega
      · cases hd
        injection ht with hhead
        omega

theorem NumberHead.opens {s : PyStr} (h : NumberHead s) : Opens s := by
  cases h with
  | @digit c s hc =>
    rw [isDigit_iff] at hc
    refine ⟨c, s, rfl, ?_, by omega, by omega⟩
    simp only [isWs, Bool.or_eq_false_iff, beq_eq_false_iff_ne]
    omega
  | @minus c s hc => exact ⟨45, c :: s, rfl, rfl, by decide, by decide⟩

theorem NumberHead.append {s : PyStr} (h : NumberHead s) (t : PyStr) : NumberHead (s ++ t) := by
  cases h with
  | digit s hc => exact .digit (s ++ t) hc
  | minus s hc => exact .minus (s ++ t) hc

theorem NumberHead.scanOnce {s : PyStr} (h : NumberHead s) (fuel : Nat) :
    scanOnce floatOf (fuel + 1) s = scanNumber floatOf s := by
  have hliteral := h.scanLiteral
  cases h with
  | @digit c s hc =>
    rw [isDigit_iff] at hc
    rw [JsonText.scanOnce, if_neg (by omega), if_neg (by omega), if_neg (by omega), hliteral]
  | @minus c s hc => rw [JsonText.scanOnce, if_neg (by omega), if_neg (by omega), if_neg (by omega), hliteral]

theorem scanOnce_number {s t : PyStr} {v : Json} (h : scanNumber floatOf s = .ok (v, []))
    (ht : Stops t) (fuel : Nat) : scanOnce floatOf (fuel + 1) (s ++ t) = .ok (v, t) := by
  rw [((scanNumber_head h).append t).scanOnce, scanNumber_append h ht]

theorem FloatLaws.scanOnce (laws : FloatLaws floatOf floatRepr) {x : PyFloat} (hx : Known floatOf x)
    {t : PyStr} (ht : Stops t) (fuel : Nat) :
    scanOnce floatOf (fuel + 1) (floatRepr x ++ t) = .ok (.float x, t) := by
  match x with
  | .nan =>
    rw [laws.nan]
    rfl
  | .inf false =>
    rw [laws.inf]
    rfl
  | .inf true =>
    rw [laws.negInf]
    rfl
  | .finite n m e =>
    obtain ⟨s, hs⟩ := hx
    exact scanOnce_number (laws.back s n m e hs) ht fuel

theorem FloatLaws.opens (laws : FloatLaws floatOf floatRepr) {x : PyFloat}
    (hx : Known floatOf x) : Opens (floatRepr x) := by
  match x with
  | .nan =>
    rw [laws.nan]
    exact ⟨78, py "aN", rfl, rfl, by decide, by decide⟩
  | .inf false =>
    rw [laws.inf]
    exact ⟨73, py "nfinity", rfl, rfl, by decide, by decide⟩
  | .inf true =>
    rw [laws.negInf]
    exact ⟨45, py "Infinity", rfl, rfl, by decide, by decide⟩
  | .finite n m e =>
    obtain ⟨s, hs⟩ := hx
    exact (scanNumber_head (laws.back s n m e hs)).opens

/-! ## Whole values -/

section Written

variable (esc floatRepr)

/-- The text of the value, with the characters replaced. -/
def written (v : Json) : PyStr := (v.dumps floatRepr).flatMap esc

def writtenItems (vs : List Json) : PyStr := (Json.dumpItems floatRepr vs).flatMap esc

def writtenFields (kvs : List (PyStr × Json)) : PyStr := (Json.dumpFields floatRepr kvs).flatMap esc

end Written

theorem written_str (hquiet : Quiet esc) (s : PyStr) :
    (dumpStr s).flatMap esc = 34 :: ((s.flatMap dumpChar).flatMap esc ++ [34]) := by
  have hquote : [34].flatMap esc = [34] := hquiet.flatMap (by decide)
  rw [dumpStr, List.flatMap_append, List.flatMap_append, hquote]
  rfl

theorem written_arr (hquiet : Quiet esc) (vs : List Json) :
    written floatRepr esc (.arr vs) = 91 :: (writtenItems floatRepr esc vs ++ [93]) := by
  have hopen : [91].flatMap esc = [91] := hquiet.flatMap (by decide)
  have hclose : [93].flatMap esc = [93] := hquiet.flatMap (by decide)
  rw [written, Json.dumps, List.flatMap_append, List.flatMap_append, hopen, hclose]
  rfl

theorem written_obj (hquiet : Quiet esc) (kvs : List (PyStr × Json)) :
    written floatRepr esc (.obj kvs) = 123 :: (writtenFields floatRepr esc kvs ++ [125]) := by
  have hopen : [123].flatMap esc = [123] := hquiet.flatMap (by decide)
  have hclose : [125].flatMap esc = [125] := hquiet.flatMap (by decide)
  rw [written, Json.dumps, List.flatMap_append, List.flatMap_append, hopen, hclose]
  rfl

theorem writtenItems_more (hquiet : Quiet esc) (v w : Json) (vs : List Json) :
    writtenItems floatRepr esc (v :: w :: vs) =
      written floatRepr esc v ++ 44 :: 32 :: writtenItems floatRepr esc (w :: vs) := by
  have hcomma : (py ", ").flatMap esc = py ", " := hquiet.flatMap (by decide)
  rw [writtenItems, Json.dumpItems, List.flatMap_append, List.flatMap_append, hcomma,
    List.append_assoc]
  · rfl
  · exact List.cons_ne_nil w vs

theorem writtenFields_one (hquiet : Quiet esc) (k : PyStr) (v : Json) :
    writtenFields floatRepr esc [(k, v)] =
      34 :: ((k.flatMap dumpChar).flatMap esc ++ 34 :: 58 :: 32 :: written floatRepr esc v) := by
  have hcolon : (py ": ").flatMap esc = py ": " := hquiet.flatMap (by decide)
  rw [writtenFields, Json.dumpFields, List.flatMap_append, List.flatMap_append, hcolon,
    written_str hquiet, List.cons_append, List.cons_append, List.append_assoc, List.append_assoc]
  rfl

theorem writtenFields_more (hquiet : Quiet esc) (k : PyStr) (v : Json) (kv : PyStr × Json)
    (kvs : List (PyStr × Json)) : writtenFields floatRepr esc ((k, v) :: kv :: kvs) =
      34 :: ((k.flatMap dumpChar).flatMap esc ++ 34 :: 58 :: 32 :: (written floatRepr esc v ++
        44 :: 32 :: writtenFields floatRepr esc (kv :: kvs))) := by
  have hone := @writtenFields_one floatRepr esc hquiet k v
  have hcomma : (py ", ").flatMap esc = py ", " := hquiet.flatMap (by decide)
  rw [writtenFields, Json.dumpFields] at hone
  rw [writtenFields, Json.dumpFields, List.flatMap_append, List.flatMap_append, hcomma, hone]
  · simp only [List.cons_append, List.append_assoc]
    rfl
  · exact List.cons_ne_nil kv kvs

theorem dumpInt_lt {n : Int} {c : Nat} (hc : c ∈ dumpInt n) : c < 127 := by
  rcases List.mem_append.mp hc with hc | hc
  · split at hc
    · rw [List.mem_singleton] at hc
      omega
    · cases hc
  · have hdigit := isDigit_iff.mp (isDigit_of_mem_digitText hc)
    omega

variable (floatRepr) in
theorem written_null (hquiet : Quiet esc) : written floatRepr esc .null = py "null" :=
  hquiet.flatMap (s := py "null") (by decide)

variable (floatRepr) in
theorem written_true (hquiet : Quiet esc) : written floatRepr esc (.bool true) = py "true" :=
  hquiet.flatMap (s := py "true") (by decide)

variable (floatRepr) in
theorem written_false (hquiet : Quiet esc) : written floatRepr esc (.bool false) = py "false" :=
  hquiet.flatMap (s := py "false") (by decide)

theorem written_int (hquiet : Quiet esc) (n : Int) :
    written floatRepr esc (.int n) = dumpInt n :=
  hquiet.flatMap fun _ hc => dumpInt_lt hc

theorem written_float (hquiet : Quiet esc) (laws : FloatLaws floatOf floatRepr) (x : PyFloat) :
    written floatRepr esc (.float x) = floatRepr x :=
  hquiet.flatMap fun c hc => (laws.plain x c hc).2

theorem stops_cons {c : Nat} (rest : PyStr)
    (h : isDigit c = false ∧ c ≠ 46 ∧ c ≠ 101 ∧ c ≠ 69) : Stops (c :: rest) := by
  intro d hd
  cases hd
  exact h

section Back

variable {chars : Nat → Prop} (hquiet : Quiet esc) (hchars : ∀ c, chars c → Spells esc c)
  (laws : FloatLaws floatOf floatRepr)

include hquiet laws in
theorem opens_written {v : Json} (hv : Plain floatOf chars v) : Opens (written floatRepr esc v) := by
  cases v with
  | null =>
    have htext := written_null floatRepr hquiet
    exact ⟨110, py "ull", htext, rfl, by decide, by decide⟩
  | bool b =>
    cases b with
    | true =>
      have htext := written_true floatRepr hquiet
      exact ⟨116, py "rue", htext, rfl, by decide, by decide⟩
    | false =>
      have htext := written_false floatRepr hquiet
      exact ⟨102, py "alse", htext, rfl, by decide, by decide⟩
  | int n =>
    have hn : n.natAbs < 10 ^ maxStrDigits := by rwa [Plain] at hv
    rw [written_int hquiet]
    exact (@scanNumber_head floatOf _ _ (scanNumber_dumpInt hn)).opens
  | float x =>
    have hx : Known floatOf x := by rwa [Plain] at hv
    rw [written_float hquiet laws]
    exact laws.opens hx
  | str s => exact ⟨34, _, written_str hquiet s, rfl, by decide, by decide⟩
  | arr vs => exact ⟨91, _, written_arr hquiet vs, rfl, by decide, by decide⟩
  | obj kvs => exact ⟨123, _, written_obj hquiet kvs, rfl, by decide, by decide⟩

theorem opens_writtenItems {v : Json} (h : Opens (written floatRepr esc v)) (hquiet : Quiet esc)
    (vs : List Json) : Opens (writtenItems floatRepr esc (v :: vs)) := by
  cases vs with
  | nil => exact h
  | cons w vs =>
    rw [writtenItems_more hquiet]
    exact h.append _

theorem opens_writtenFields (hquiet : Quiet esc) (kv : PyStr × Json) (kvs : List (PyStr × Json)) :
    Opens (writtenFields floatRepr esc (kv :: kvs)) := by
  cases kvs with
  | nil => exact ⟨34, _, writtenFields_one hquiet kv.1 kv.2, rfl, by decide, by decide⟩
  | cons kv' kvs => exact ⟨34, _, writtenFields_more hquiet kv.1 kv.2 kv' kvs, rfl, by decide, by decide⟩

include hquiet hchars laws

/-- The text of a value is read as the value, before whatever does not continue a
number; the induction is on the fuel, which covers two levels a character. -/
theorem scan_written (fuel : Nat) :
    (∀ v rest, Plain floatOf chars v → 2 * (written floatRepr esc v).length + 1 ≤ fuel →
      Stops rest → scanOnce floatOf fuel (written floatRepr esc v ++ rest) = .ok (v, rest)) ∧
    (∀ v vs rest, PlainItems floatOf chars (v :: vs) →
      2 * (writtenItems floatRepr esc (v :: vs)).length + 2 ≤ fuel →
      scanItems floatOf fuel (writtenItems floatRepr esc (v :: vs) ++ 93 :: rest) =
        .ok (v :: vs, rest)) ∧
    (∀ k v kvs rest, PlainFields floatOf chars ((k, v) :: kvs) →
      2 * (writtenFields floatRepr esc ((k, v) :: kvs)).length + 2 ≤ fuel →
      scanMembers floatOf fuel (writtenFields floatRepr esc ((k, v) :: kvs) ++ 125 :: rest) =
        .ok ((k, v) :: kvs, rest)) := by
  induction fuel with
  | zero => exact ⟨by omega, by omega, by omega⟩
  | succ fuel ih =>
    obtain ⟨ihOnce, ihItems, ihMembers⟩ := ih
    refine ⟨fun v rest hv hfuel hrest => ?_, fun v vs rest hvs hfuel => ?_,
      fun k v kvs rest hkvs hfuel => ?_⟩
    · cases v with
      | null =>
        have htext := written_null floatRepr hquiet
        rw [htext]
        rfl
      | bool b =>
        cases b with
        | true =>
          have htext := written_true floatRepr hquiet
          rw [htext]
          rfl
        | false =>
          have htext := written_false floatRepr hquiet
          rw [htext]
          rfl
      | int n =>
        have hn : n.natAbs < 10 ^ maxStrDigits := by rwa [Plain] at hv
        rw [written_int hquiet]
        exact scanOnce_number (scanNumber_dumpInt hn) hrest fuel
      | float x =>
        have hx : Known floatOf x := by rwa [Plain] at hv
        rw [written_float hquiet laws]
        exact laws.scanOnce hx hrest fuel
      | str s =>
        have hs : ∀ c ∈ s, chars c := by rwa [Plain] at hv
        have htext : written floatRepr esc (.str s) ++ rest =
            34 :: ((s.flatMap dumpChar).flatMap esc ++ 34 :: rest) := by
          rw [written, Json.dumps, written_str hquiet, List.cons_append, List.append_assoc,
            List.singleton_append]
        rw [htext, scanOnce_str, scanString_body fun c hc => hchars c (hs c hc)]
        rfl
      | arr vs =>
        rw [written_arr hquiet, List.cons_append, List.append_assoc, List.singleton_append]
        rw [written_arr hquiet, List.length_cons, List.length_append, List.length_singleton] at hfuel
        cases vs with
        | nil => rfl
        | cons v vs =>
          have hvs : PlainItems floatOf chars (v :: vs) := by rwa [Plain] at hv
          have hv' : Plain floatOf chars v := by
            rw [PlainItems] at hvs
            exact hvs.1
          obtain ⟨c, t, htext, hws, hc, -⟩ :=
            (opens_writtenItems (opens_written hquiet laws hv') hquiet vs).append (93 :: rest)
          have hitems := ihItems v vs rest hvs (by omega)
          rw [htext] at hitems ⊢
          rw [scanOnce_arr fuel hws hc, hitems]
          rfl
      | obj kvs =>
        rw [written_obj hquiet, List.cons_append, List.append_assoc, List.singleton_append]
        rw [written_obj hquiet, List.length_cons, List.length_append, List.length_singleton] at hfuel
        rw [Plain] at hv
        cases kvs with
        | nil => rfl
        | cons kv kvs =>
          obtain ⟨k, v⟩ := kv
          have hmembers := ihMembers k v kvs rest hv.2 (by omega)
          have hdict : toDict ((k, v) :: kvs) = .obj ((k, v) :: kvs) :=
            congrArg Json.obj (@Assoc.update_of_new _ _ _ _ _ [] ((k, v) :: kvs) hv.1)
          have htext : ∃ t, writtenFields floatRepr esc ((k, v) :: kvs) ++ 125 :: rest = 34 :: t := by
            cases kvs with
            | nil => exact ⟨_, congrArg (· ++ 125 :: rest) (writtenFields_one hquiet k v)⟩
            | cons kv' kvs =>
              exact ⟨_, congrArg (· ++ 125 :: rest) (writtenFields_more hquiet k v kv' kvs)⟩
          obtain ⟨t, htext⟩ := htext
          rw [htext] at hmembers ⊢
          rw [scanOnce_obj, hmembers]
          exact congrArg (fun d => Except.ok (d, rest)) hdict
    · rw [PlainItems] at hvs
      cases vs with
      | nil =>
        have hone : writtenItems floatRepr esc [v] = written floatRepr esc v := rfl
        rw [hone] at hfuel ⊢
        exact scanItems_last (ihOnce v _ hvs.1 (by omega) (stops_cons rest (by decide)))
      | cons w vs =>
        have hw : Plain floatOf chars w := by
          have h := hvs.2
          rw [PlainItems] at h
          exact h.1
        rw [writtenItems_more hquiet, List.length_append, List.length_cons, List.length_cons] at hfuel
        have hopens := (opens_writtenItems (opens_written hquiet laws hw) hquiet vs).append
          (93 :: rest)
        rw [writtenItems_more hquiet, List.append_assoc, List.cons_append, List.cons_append,
          scanItems_more (ihOnce v _ hvs.1 (by omega) (stops_cons _ (by decide))) hopens,
          ihItems w vs rest hvs.2 (by omega)]
        rfl
    · rw [PlainFields] at hkvs
      obtain ⟨hk, hv, hkvs⟩ := hkvs
      have hkey := fun opening t => scanString_body (fun c hc => hchars c (hk c hc)) opening
        (58 :: 32 :: t)
      have hopens := opens_written hquiet laws hv
      cases kvs with
      | nil =>
        rw [writtenFields_one hquiet, List.length_cons, List.length_append, List.length_cons,
          List.length_cons, List.length_cons] at hfuel
        rw [writtenFields_one hquiet, List.cons_append, List.append_assoc, List.cons_append,
          List.cons_append, List.cons_append]
        exact scanMembers_last (hkey _ _) (hopens.append _)
          (ihOnce v _ hv (by omega) (stops_cons rest (by decide)))
      | cons kv kvs =>
        obtain ⟨k', v'⟩ := kv
        rw [writtenFields_more hquiet, List.length_cons, List.length_append, List.length_cons,
          List.length_cons, List.length_cons, List.length_append, List.length_cons,
          List.length_cons] at hfuel
        rw [writtenFields_more hquiet, List.cons_append, List.append_assoc, List.cons_append,
          List.cons_append, List.cons_append, List.append_assoc, List.cons_append, List.cons_append,
          scanMembers_more (hkey _ _) (hopens.append _)
            (ihOnce v _ hv (by omega) (stops_cons _ (by decide)))
            ((opens_writtenFields hquiet (k', v') kvs).append _),
          ihMembers k' v' kvs rest hkvs (by omega)]
        rfl

/-- The value is read back from its text, whatever blanks follow. -/
theorem loads_written {v : Json} (hv : Plain floatOf chars v) {tail : PyStr}
    (htail : ∀ c ∈ tail, isWs c = true) :
    loads floatOf (written floatRepr esc v ++ tail) = .ok v := by
  have hopens := (opens_written hquiet laws hv).append tail
  have hstops : Stops tail := by
    intro c hc
    have hws := htail c (List.mem_of_mem_head? hc)
    simp only [isWs, Bool.or_eq_true, beq_iff_eq] at hws
    simp only [isDigit, Bool.and_eq_false_iff, decide_eq_false_iff_not]
    omega
  have hscan := (scan_written hquiet hchars laws (fuelFor (written floatRepr esc v ++ tail))).1 v
    tail hv (by rw [fuelFor, List.length_append]; omega) hstops
  have hend : skipWs tail = [] := List.dropWhile_eq_nil_iff.mpr htail
  have hmark : (written floatRepr esc v ++ tail).head? ≠ some 0xfeff := by
    obtain ⟨c, t, htext, -, -, hlt⟩ := hopens
    rw [htext]
    intro hhead
    cases hhead
    omega
  unfold loads
  rw [if_neg hmark, hopens.skipWs, hscan]
  exact congrArg (atEnd v) hend

end Back

variable (laws : FloatLaws floatOf floatRepr)

include laws

theorem loads_dumps {v : Json} (hv : Plain floatOf (fun _ => True) v) {tail : PyStr}
    (htail : ∀ c ∈ tail, isWs c = true) : loads floatOf (v.dumps floatRepr ++ tail) = .ok v := by
  have hquiet : Quiet fun c => [c] := fun _ _ => rfl
  have h := loads_written hquiet (fun c _ => spells_self c) laws hv htail
  rwa [written, List.flatMap_singleton'] at h

theorem loads_dumpsAscii {v : Json} (hv : Plain floatOf (fun c => isScalar c = true) v)
    {tail : PyStr} (htail : ∀ c ∈ tail, isWs c = true) :
    loads floatOf (v.dumpsAscii floatRepr ++ tail) = .ok v :=
  loads_written quiet_escapeChar (fun _ hc => spells_escapeChar hc) laws hv htail

omit laws

/-! ## What is read is plain -/

theorem plainFields_iff {chars : Nat → Prop} {kvs : List (PyStr × Json)} :
    PlainFields floatOf chars kvs ↔
      ∀ kv ∈ kvs, (∀ c ∈ kv.1, chars c) ∧ Plain floatOf chars kv.2 := by
  induction kvs with
  | nil =>
    rw [PlainFields]
    exact ⟨fun _ _ hmem => (List.not_mem_nil hmem).elim, fun _ => trivial⟩
  | cons kv kvs ih =>
    rw [PlainFields, ih, List.forall_mem_cons, and_assoc]

theorem plainItems_iff {chars : Nat → Prop} {vs : List Json} :
    PlainItems floatOf chars vs ↔ ∀ v ∈ vs, Plain floatOf chars v := by
  induction vs with
  | nil =>
    rw [PlainItems]
    exact ⟨fun _ _ hmem => (List.not_mem_nil hmem).elim, fun _ => trivial⟩
  | cons v vs ih => rw [PlainItems, ih, List.forall_mem_cons]

theorem intValue_lt {s : PyStr} (h : ∀ c ∈ s, isDigit c = true) : intValue s < 10 ^ s.length := by
  have hfold : ∀ (s : PyStr) (m : Nat), (∀ c ∈ s, isDigit c = true) →
      s.foldl (fun n c => 10 * n + (c - 48)) m < (m + 1) * 10 ^ s.length := by
    intro s
    induction s with
    | nil =>
      intro m _
      rw [List.foldl_nil, List.length_nil, Nat.pow_zero, Nat.mul_one]
      exact Nat.lt_succ_self m
    | cons c s ih =>
      intro m h
      rw [List.forall_mem_cons, isDigit_iff] at h
      have hstep := ih (10 * m + (c - 48)) h.2
      have hle : (10 * m + (c - 48) + 1) * 10 ^ s.length ≤ ((m + 1) * 10) * 10 ^ s.length :=
        Nat.mul_le_mul_right _ (by omega)
      rw [List.foldl_cons, List.length_cons, Nat.pow_succ', ← Nat.mul_assoc]
      exact Nat.lt_of_lt_of_le hstep hle
  have hzero := hfold s 0 h
  rwa [Nat.zero_add, Nat.one_mul] at hzero

theorem wholePart_digits {s whole rest : PyStr} (h : wholePart s = some (whole, rest)) :
    ∀ c ∈ whole, isDigit c = true := by
  cases s with
  | nil => cases h
  | cons c s =>
    rw [wholePart] at h
    split at h
    · cases h
      intro d hd
      rw [List.mem_singleton] at hd
      rw [hd]
      rfl
    · split at h
      · next hc =>
        cases h
        intro d hd
        rcases List.mem_cons.mp hd with rfl | hd
        · exact hc
        · exact List.mem_takeWhile_imp hd
      · cases h

theorem known_floatOf (s : PyStr) : Known floatOf (floatOf s) := by
  cases h : floatOf s with
  | finite n m e => exact ⟨s, h⟩
  | inf n => trivial
  | nan => trivial

theorem scanNumber_plain {chars : Nat → Prop} {s : PyStr} {p : Json × PyStr}
    (h : scanNumber floatOf s = .ok p) : Plain floatOf chars p.1 := by
  obtain ⟨whole, rest, hwhole, -, ⟨-, -, hlen, hvalue⟩ | ⟨-, hvalue⟩⟩ := scanNumber_eq_ok h
  · have hlt := Nat.lt_of_lt_of_le (intValue_lt (wholePart_digits hwhole))
      (Nat.pow_le_pow_right (by decide) hlen)
    rw [hvalue, Plain]
    split
    · rwa [Int.natAbs_natCast]
    · rwa [Int.natAbs_neg, Int.natAbs_natCast]
  · rw [hvalue, Plain]
    exact known_floatOf _

theorem scanLiteral_plain {chars : Nat → Prop} {s : PyStr} {p : Json × PyStr}
    (h : scanLiteral s = some p) : Plain floatOf chars p.1 := by
  obtain ⟨entry, hentry, hp⟩ := List.exists_of_findSome?_eq_some h
  split at hp
  · cases hp
    simp only [literals, List.mem_cons, List.not_mem_nil, or_false] at hentry
    rcases hentry with rfl | rfl | rfl | rfl | rfl | rfl <;> simp only [Plain, Known]
  · cases hp

theorem toDict_plain {members : List (PyStr × Json)}
    (h : ∀ kv ∈ members, Plain floatOf (fun _ => True) kv.2) :
    Plain floatOf (fun _ => True) (toDict members) := by
  have hupdate : ∀ (members d : List (PyStr × Json)),
      (∀ kv ∈ members, Plain floatOf (fun _ => True) kv.2) →
      (∀ kv ∈ d, Plain floatOf (fun _ => True) kv.2) →
      ∀ kv ∈ Assoc.update d members, Plain floatOf (fun _ => True) kv.2 := by
    intro members
    induction members with
    | nil => exact fun d _ hd => hd
    | cons kv members ih =>
      intro d hmembers hd
      rw [List.forall_mem_cons] at hmembers
      refine ih _ hmembers.2 fun kv' hkv' => ?_
      rcases Assoc.mem_set hkv' with rfl | hmem
      · exact hmembers.1
      · exact hd kv' hmem
  have hnil : (Assoc.keys ([] : List (PyStr × Json))).Nodup := List.nodup_nil
  rw [toDict, Plain, plainFields_iff]
  exact ⟨Assoc.nodup_keys_update hnil members,
    fun kv hkv => ⟨fun _ _ => trivial, hupdate members [] h (fun _ hmem => by cases hmem) kv hkv⟩⟩

theorem scan_plain (fuel : Nat) :
    (∀ s p, scanOnce floatOf fuel s = .ok p → Plain floatOf (fun _ => True) p.1) ∧
    (∀ s p, scanItems floatOf fuel s = .ok p → ∀ v ∈ p.1, Plain floatOf (fun _ => True) v) ∧
    (∀ s p, scanMembers floatOf fuel s = .ok p →
      ∀ kv ∈ p.1, Plain floatOf (fun _ => True) kv.2) := by
  induction fuel with
  | zero =>
    refine ⟨fun s p h => ?_, fun s p h => ?_, fun s p h => ?_⟩
    · rw [scanOnce] at h
      cases h
    · rw [scanItems] at h
      cases h
    · rw [scanMembers] at h
      cases h
  | succ fuel ih =>
    obtain ⟨ihOnce, ihItems, ihMembers⟩ := ih
    refine ⟨fun s p h => ?_, fun s p h => ?_, fun s p h => ?_⟩
    · unfold scanOnce at h
      split at h
      · cases h
      · split at h
        · obtain ⟨q, -, rfl⟩ := map_eq_ok h
          rw [Plain]
          exact fun _ _ => trivial
        split at h
        · split at h
          · cases h
            exact @toDict_plain floatOf [] fun _ hmem => by cases hmem
          · obtain ⟨q, hq, rfl⟩ := map_eq_ok h
            exact toDict_plain (ihMembers _ _ hq)
        split at h
        · split at h
          · cases h
            rw [Plain, PlainItems]
            trivial
          · obtain ⟨q, hq, rfl⟩ := map_eq_ok h
            rw [Plain, plainItems_iff]
            exact ihItems _ _ hq
        split at h
        · next q hq =>
          cases h
          exact scanLiteral_plain hq
        · exact scanNumber_plain h
    · rw [scanItems] at h
      obtain ⟨q, hq, h⟩ := bind_eq_ok.mp h
      have hvalue := ihOnce _ _ hq
      dsimp only at h
      split at h
      · cases h
        exact fun v hv => List.mem_singleton.mp hv ▸ hvalue
      · obtain ⟨q', hq', rfl⟩ := map_eq_ok h
        exact List.forall_mem_cons.mpr ⟨hvalue, ihItems _ _ hq'⟩
      · cases h
    · unfold scanMembers at h
      split at h
      · obtain ⟨q, -, h⟩ := bind_eq_ok.mp h
        dsimp only at h
        split at h
        · obtain ⟨q', hq', h⟩ := bind_eq_ok.mp h
          have hvalue := ihOnce _ _ hq'
          split at h
          · cases h
            exact fun kv hkv => List.mem_singleton.mp hkv ▸ hvalue
          · obtain ⟨q'', hq'', rfl⟩ := map_eq_ok h
            exact List.forall_mem_cons.mpr ⟨hvalue, ihMembers _ _ hq''⟩
          · cases h
        · cases h
      · cases h

/-- Every value a text gives is read back from its own text. -/
theorem loads_plain {text : PyStr} {v : Json} (h : loads floatOf text = .ok v) :
    Plain floatOf (fun _ => True) v := by
  unfold loads at h
  split at h
  · cases h
  · obtain ⟨q, hq, h⟩ := bind_eq_ok.mp h
    have hvalue := (scan_plain _).1 _ _ hq
    dsimp only at h
    unfold atEnd at h
    split at h
    · cases h
      exact hvalue
    · cases h

end TxLookup.Library.JsonText
