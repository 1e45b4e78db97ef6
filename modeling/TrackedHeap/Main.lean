import TrackedHeap.Demo

/-!
# The command

Makes a demonstration run with settings from the environment of the process and prints its report, or the
reason why there is none.
-/

namespace TrackedHeap

/-- The variables that settings are read from. -/
def settingNames : List String :=
  ["RAWMEM_ALIGNMENT", "RAWMEM_RAW_BUDGET", "RAWMEM_LEAK_AGE_MS", "RAWMEM_POOL_BLOCK_SIZE",
    "RAWMEM_POOL_MAX_SIZE"]

end TrackedHeap

open TrackedHeap

def main : IO UInt32 := do
  let start ← IO.monoNanosNow
  let values ← settingNames.mapM fun name => do
    let value ← IO.getEnv name
    return (name, value)
  let env : Environment := fun name => (values.lookup name).join
  let stop ← IO.monoNanosNow
  match Demo.output env ((stop - start) / 1000) with
  | .ok text =>
    IO.println text
    return 0
  | .error failure =>
    IO.eprint failure.message
    return 1
