import RailFreight.Job.View
import RailFreight.Station.Summary
import RailFreight.Wire.Names

/-!
# Tracks, jobs and stations on the wire
-/

namespace RailFreight

/-- The character that a string of one character consists of. -/
def Json.char? (j : Json) : Option Char :=
  match j.string?.map String.toList with
  | some [c] => some c
  | _ => none

instance : Wire Track where
  encode t := .record
    [("station", encode t.station), ("class", encode t.role),
     ("yard", .ofString (String.singleton t.yard)), ("number", .ofNat t.number.toNat)]
  decode? j := do
    let f ← j.fields? ["station", "class", "yard", "number"]
    return {
      station := ← f.required "station" decode?
      role := ← f.required "class" decode?
      yard := ← f.required "yard" Json.char?
      number := UInt8.ofNat (← f.required "number" (Json.below? limit8)) }

instance : Wire JobView where
  encode v := .record
    [("id", encode v.id), ("type", encode v.kind), ("starting_track", .ofString v.startingTrack),
     ("target_station", encode v.targetStation), ("target_track", .ofString v.targetTrack),
     ("car_count", .ofNat v.cars), ("cargo_type", encode v.cargo), ("wage", .ofNat v.wage)]
  decode? j := do
    let f ← j.fields? ["id", "type", "starting_track", "target_station", "target_track",
      "car_count", "cargo_type", "wage"]
    return {
      id := ← f.required "id" decode?
      kind := ← f.required "type" decode?
      startingTrack := ← f.required "starting_track" Json.string?
      targetStation := ← f.required "target_station" decode?
      targetTrack := ← f.required "target_track" Json.string?
      cars := ← f.required "car_count" (Json.below? limit32)
      cargo := ← f.required "cargo_type" decode?
      wage := ← f.required "wage" (Json.below? limit32) }

/-- The document of a stock: one member for each cargo. -/
def Stock.encode (s : Stock) : Json := .record (s.entries.map fun (c, n) => (c.name, .ofNat n))

/-- The stock of an object; of two members for one cargo the later counts. -/
def Stock.decode? (j : Json) : Option Stock := do
  let entries ← (← j.members?).mapM fun (name, value) => do
    return (← Cargo.ofName? name, ← value.below? limit32)
  return Table.ofList entries

instance : Wire StationSummary where
  encode s := .record
    [("station_id", encode s.station), ("inputs", Wire.encodeList s.inputs),
     ("outputs", Wire.encodeList s.outputs), ("queued", .ofNat s.queued),
     ("spawned", .ofNat s.spawned), ("active", .ofNat s.active), ("overflow", s.overflow.encode)]
  decode? j := do
    let f ← j.fields?
      ["station_id", "inputs", "outputs", "queued", "spawned", "active", "overflow"]
    return {
      station := ← f.required "station_id" decode?
      inputs := ← f.required "inputs" Wire.decodeList?
      outputs := ← f.required "outputs" Wire.decodeList?
      queued := ← f.required "queued" (Json.below? limit64)
      spawned := ← f.required "spawned" (Json.below? limit64)
      active := ← f.required "active" (Json.below? limit64)
      overflow := ← f.required "overflow" Stock.decode? }

end RailFreight
