import RespClient.Reply.Convert
import RespClient.Wire.Encode

/-!
# Requests

A request is a command and its arguments. It travels as an array of bulk
strings; an integer argument travels as its decimal text. Error, nil and array
values have no place in a request.
-/

namespace RespClient

structure Request where
  command : String
  args : List Reply := []
  deriving DecidableEq, Repr

namespace Request

open Wire

/-- The bytes that an argument sends, if it can be sent. -/
def argument? : Reply → Option Bytes
  | .integer n => some (decimal n.toInt)
  | arg => arg.payload?

/-- The refusal of an argument that cannot be sent. -/
def unsendable (arg : Reply) : Failure :=
  .protocol ("Cannot send " ++ arg.describe ++ " as a command argument")

/-- Append the arguments to a buffer, up to the first that cannot be sent. -/
def appendArgs : List Reply → Act Bytes Unit
  | [] => fun buffer => .ok () buffer
  | arg :: args => fun buffer =>
      match argument? arg with
      | some data => appendArgs args (buffer ++ bulk data)
      | none => .error (unsendable arg) buffer

/-- Append a request to a buffer. What stands before an argument that cannot be
sent stays in the buffer. -/
def append (request : Request) : Act Bytes Unit := fun buffer =>
  appendArgs request.args
    (buffer ++ line 42 (decimal (1 + request.args.length)) ++ bulk (Utf8.encode request.command))

/-- The bytes of a request. -/
def encode (request : Request) : Except Failure Bytes :=
  match request.append [] with
  | .ok _ buffer => .ok buffer
  | .error e _ => .error e

/-- What is appended does not depend on what the buffer holds. -/
theorem appendArgs_append (args : List Reply) (before buffer : Bytes) :
    appendArgs args (before ++ buffer) =
      match appendArgs args buffer with
      | .ok _ after => .ok () (before ++ after)
      | .error e after => .error e (before ++ after) := by
  induction args generalizing buffer with
  | nil => rfl
  | cons arg args ih =>
      simp only [appendArgs]
      cases argument? arg with
      | none => rfl
      | some data => simpa using ih (buffer ++ bulk data)

/-- Appending to a buffer and encoding by itself give the same bytes, and fail
alike. -/
theorem append_eq (request : Request) (before : Bytes) :
    request.append before =
      match request.append [] with
      | .ok _ after => .ok () (before ++ after)
      | .error e after => .error e (before ++ after) := by
  simpa [append] using appendArgs_append request.args before
    (line 42 (decimal (1 + request.args.length)) ++ bulk (Utf8.encode request.command))

theorem append_eq_error {request : Request} {e : Failure} (h : request.encode = .error e)
    (before : Bytes) : ∃ after, request.append before = .error e after := by
  rw [append_eq]
  unfold encode at h
  cases hr : request.append [] with
  | ok _ after => simp [hr] at h
  | error e' after =>
      simp only [hr, Except.error.injEq] at h
      exact ⟨before ++ after, by simp [h]⟩

end Request

end RespClient
