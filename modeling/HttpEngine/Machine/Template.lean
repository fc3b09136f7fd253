import HttpEngine.Machine.Basic
import HttpEngine.Route.Template

/-!
# Templates in a machine

A place in the template and one in the path move on together.  A placeholder moves the one behind
its closing brace, and the other one to the next slash or to the end of the path.
-/

namespace HttpEngine
namespace Machine

open Template (openingBrace closingBrace slash Capture.pair)

def segmentEnd (path : Bytes) (start : Nat) : Except Slip Nat := do
  let rest <- slice path start path.length
  let left <- sub path.length start
  add start ((find? [slash] rest).getD left)

def matchFrom (limit : Nat) (template path : Bytes) :
    Nat -> Nat -> Nat -> Array Pair -> Except Slip (Bool × Array Pair)
  | fuel, t, p, held =>
      if t < template.length then
        match fuel with
        | 0 => .error .endless
        | fuel + 1 => do
            let byte <- get template t
            if byte = openingBrace then
              let rest <- slice template t template.length
              match find? [closingBrace] rest with
              | none => return (false, held)
              | some close =>
                  if limit ≤ held.size then return (false, held)
                  else
                    let next <- segmentEnd path p
                    let start <- add t 1
                    let stop <- add t close
                    let name <- slice template start stop
                    let value <- slice path p next
                    let past <- add close 1
                    let t <- add t past
                    matchFrom limit template path fuel t next
                      (held.push (Capture.pair (name, value)))
            else if p = path.length then return (false, held)
            else
              let other <- get path p
              if byte = other then
                let t <- add t 1
                let p <- add p 1
                matchFrom limit template path fuel t p held
              else return (false, held)
      else return (t == template.length && p == path.length, held)

def matchInto (maxParams : Nat) (template path : String) (held : Array Pair) :
    Except Slip (Bool × Array Pair) :=
  matchFrom maxParams (Utf8.encode template) (Utf8.encode path) (Utf8.encode template).length 0 0
    held

end Machine
end HttpEngine
