import TrackedHeap.Carver.Tier
import TrackedHeap.Json.Decode
import TrackedHeap.Strategy
import TrackedHeap.Tracker.Pressure
import TrackedHeap.Alignment

/-!
# Forms of names

Alignments, strategies, pressures, tiers and kinds of errors are written as their names.
-/

namespace TrackedHeap

open Json (Reader)

namespace Alignment

def toJson (a : Alignment) : Json := .string a.name

def reader : Reader Alignment := .choice all name

end Alignment

namespace Strategy

def toJson (s : Strategy) : Json := .string s.name

def reader : Reader Strategy := .choice all name

end Strategy

namespace Pressure

def toJson (p : Pressure) : Json := .string p.name

def reader : Reader Pressure := .choice all name

end Pressure

namespace Tier

def toJson (t : Tier) : Json := .string t.name

def reader : Reader Tier := .choice all name

end Tier

namespace ErrorKind

def toJson (k : ErrorKind) : Json := .string k.name

def reader : Reader ErrorKind := .choice all name

end ErrorKind

end TrackedHeap
