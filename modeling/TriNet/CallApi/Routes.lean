import TriNet.Lib.Lines
import TriNet.Lib.Templates
import TriNet.CallApi.Server

namespace TriNet.CallApi

open Lib Lib.BigEndian Lib.Lines

/-- The handlers that call `authenticate`: all but `health`. -/
inductive Handler
  | registerDevice
  | accountSnapshot
  | createLinkCode
  | linkDevice
  | revokeDevice
  | claimNickname
  | searchNicknames
  | createCall
  | incomingCalls
  | joinCall
  | declineCall
  | callStatus
  | endCall
  | cancelCall
  | resolveDirectMessageRecipient
  | sendDirectMessage
  | listDirectMessages
  | markDirectMessagesRead
  | createGroupChat
  | listGroupChats
  | sendGroupMessage
  | listGroupMessages
  | markGroupChatRead
  deriving DecidableEq

namespace Handler

def all : List Handler :=
  [.registerDevice, .accountSnapshot, .createLinkCode, .linkDevice, .revokeDevice,
    .claimNickname, .searchNicknames,
    .createCall, .incomingCalls, .joinCall, .declineCall, .callStatus, .endCall, .cancelCall,
    .resolveDirectMessageRecipient, .sendDirectMessage, .listDirectMessages, .markDirectMessagesRead,
    .createGroupChat, .listGroupChats, .sendGroupMessage, .listGroupMessages, .markGroupChatRead]

theorem mem_all (handler : Handler) : handler ∈ all := by
  cases handler <;> decide

/-- The routes of `application`. -/
def route : Handler → Template
  | .registerDevice => .fixed "/v1/devices/register"
  | .accountSnapshot => .fixed "/v1/account"
  | .createLinkCode => .fixed "/v1/account/link-code"
  | .linkDevice => .fixed "/v1/account/link"
  | .revokeDevice => .gap "/v1/account/devices/" "/revoke"
  | .claimNickname => .fixed "/v1/directory/nicknames/claim"
  | .searchNicknames => .fixed "/v1/directory/search"
  | .createCall => .fixed "/v1/calls"
  | .incomingCalls => .fixed "/v1/calls/incoming"
  | .joinCall => .gap "/v1/calls/" "/join"
  | .declineCall => .gap "/v1/calls/" "/decline"
  | .callStatus => .gap "/v1/calls/" "/status"
  | .endCall => .gap "/v1/calls/" "/end"
  | .cancelCall => .gap "/v1/calls/" "/cancel"
  | .resolveDirectMessageRecipient => .fixed "/v1/direct-messages/recipients"
  | .sendDirectMessage => .fixed "/v1/direct-messages"
  | .listDirectMessages => .fixed "/v1/direct-messages/inbox"
  | .markDirectMessagesRead => .fixed "/v1/direct-messages/read"
  | .createGroupChat => .fixed "/v1/chats"
  | .listGroupChats => .fixed "/v1/chats/list"
  | .sendGroupMessage => .gap "/v1/chats/" "/messages"
  | .listGroupMessages => .gap "/v1/chats/" "/messages/list"
  | .markGroupChatRead => .gap "/v1/chats/" "/read"

/-- The method each handler names to `authenticate`; its route takes no other. -/
def method (_ : Handler) : String := "POST"

/-- The path each handler names to `authenticate`, built again from its decoded
parameter. -/
def path : (handler : Handler) → handler.route.Parameters → String
  | .registerDevice, _ => "/v1/devices/register"
  | .accountSnapshot, _ => "/v1/account"
  | .createLinkCode, _ => "/v1/account/link-code"
  | .linkDevice, _ => "/v1/account/link"
  | .revokeDevice, (targetDeviceId : String) => "/v1/account/devices/" ++ targetDeviceId ++ "/revoke"
  | .claimNickname, _ => "/v1/directory/nicknames/claim"
  | .searchNicknames, _ => "/v1/directory/search"
  | .createCall, _ => "/v1/calls"
  | .incomingCalls, _ => "/v1/calls/incoming"
  | .joinCall, (callId : String) => "/v1/calls/" ++ callId ++ "/join"
  | .declineCall, (callId : String) => "/v1/calls/" ++ callId ++ "/decline"
  | .callStatus, (callId : String) => "/v1/calls/" ++ callId ++ "/status"
  | .endCall, (callId : String) => "/v1/calls/" ++ callId ++ "/end"
  | .cancelCall, (callId : String) => "/v1/calls/" ++ callId ++ "/cancel"
  | .resolveDirectMessageRecipient, _ => "/v1/direct-messages/recipients"
  | .sendDirectMessage, _ => "/v1/direct-messages"
  | .listDirectMessages, _ => "/v1/direct-messages/inbox"
  | .markDirectMessagesRead, _ => "/v1/direct-messages/read"
  | .createGroupChat, _ => "/v1/chats"
  | .listGroupChats, _ => "/v1/chats/list"
  | .sendGroupMessage, (chatId : String) => "/v1/chats/" ++ chatId ++ "/messages"
  | .listGroupMessages, (chatId : String) => "/v1/chats/" ++ chatId ++ "/messages/list"
  | .markGroupChatRead, (chatId : String) => "/v1/chats/" ++ chatId ++ "/read"

theorem path_eq_fill (handler : Handler) (p : handler.route.Parameters) :
    handler.path p = handler.route.fill p := by
  cases handler <;> rfl

theorem routes_apart {handler handler' : Handler} (h : handler ≠ handler') :
    handler.route.Apart handler'.route := by
  have hall : ∀ a ∈ all, ∀ b ∈ all, a ≠ b → a.route.Apart b.route := by decide +kernel
  exact hall handler handler.mem_all handler' handler'.mem_all h

end Handler

/-- What a request addresses: a handler, with the decoded parameters of its
path, which may hold any characters. -/
structure Target where
  handler : Handler
  parameters : handler.route.Parameters

def Target.path (t : Target) : String := t.handler.path t.parameters

theorem Target.path_injective : Function.Injective Target.path := by
  rintro ⟨handler, p⟩ ⟨handler', p'⟩ h
  simp only [Target.path, Handler.path_eq_fill] at h
  by_cases hsame : handler = handler'
  · subst hsame
    rw [handler.route.fill_injective h]
  · exact absurd h ((Handler.routes_apart hsame).fill_ne p p')

section Canonical

variable {method method' path path' timestamp timestamp' nonce nonce' : String} {body body' : Bytes}

theorem canonical_eq_join (env : Env) (method path timestamp nonce : String) (body : Bytes) :
    canonical env method path timestamp nonce body =
      join (toAsciiUppercase method :: ([path] ++ [timestamp] ++ [nonce] ++ [env.digestHex body])) := by
  apply String.toList_inj.mp
  simp only [canonical, String.toList_append, List.cons_append, List.nil_append,
    toList_join_cons (List.cons_ne_nil _ _), List.append_assoc]
  simp [join]

theorem singleLine_digestHex (env : Env) (body : Bytes) : SingleLine (env.digestHex body) := by
  have hhex : '\n' ∉ lowerHex := by decide +kernel
  exact fun h => hhex (mem_lowercaseHex h)

/-- Only the path may hold newlines, so the fields before it are read from the
front and those behind it from the back. -/
theorem canonical_inj {env : Env} (hmethod : SingleLine (toAsciiUppercase method))
    (hmethod' : SingleLine (toAsciiUppercase method')) (htimestamp : SingleLine timestamp)
    (htimestamp' : SingleLine timestamp') (hnonce : SingleLine nonce) (hnonce' : SingleLine nonce')
    (h : canonical env method path timestamp nonce body =
      canonical env method' path' timestamp' nonce' body') :
    toAsciiUppercase method = toAsciiUppercase method' ∧ path = path' ∧ timestamp = timestamp' ∧
      nonce = nonce' ∧ env.digestHex body = env.digestHex body' := by
  have hpath (p : String) : join [p] = p := by simp [join]
  rw [canonical_eq_join, canonical_eq_join] at h
  obtain ⟨hm, h⟩ := join_cons_inj hmethod hmethod' (by simp) (by simp) h
  obtain ⟨hb, h⟩ := join_concat_inj (singleLine_digestHex env body) (singleLine_digestHex env body')
    (by simp) (by simp) h
  obtain ⟨hn, h⟩ := join_concat_inj hnonce hnonce' (by simp) (by simp) h
  obtain ⟨ht, h⟩ := join_concat_inj htimestamp htimestamp' (by simp) (by simp) h
  rw [hpath, hpath] at h
  exact ⟨hm, h, ht, hn, hb⟩

/-- The text that is signed for a request says which handler it is for, with
which parameters, and all else that is signed. -/
theorem signed_requests_unambiguous {env : Env} {t t' : Target} (htimestamp : SingleLine timestamp)
    (htimestamp' : SingleLine timestamp') (hnonce : SingleLine nonce) (hnonce' : SingleLine nonce')
    (h : canonical env t.handler.method t.path timestamp nonce body =
      canonical env t'.handler.method t'.path timestamp' nonce' body') :
    t = t' ∧ t.handler.method = t'.handler.method ∧ timestamp = timestamp' ∧ nonce = nonce' ∧
      env.digestHex body = env.digestHex body' := by
  have hpost : SingleLine (toAsciiUppercase "POST") := by decide +kernel
  obtain ⟨_, hpath, hrest⟩ := canonical_inj hpost hpost htimestamp htimestamp' hnonce hnonce' h
  obtain rfl := Target.path_injective hpath
  exact ⟨rfl, rfl, hrest⟩

/-- A parameter that looks like the end of one request and the start of another. -/
def hostileTarget : Target := ⟨.joinCall, "c/end\n1000\nnonce\n0\nPOST\n/v1/calls/d"⟩

theorem signed_requests_unambiguous_hostile :
    SingleLine "1000" ∧ SingleLine "nonce" ∧ plainEnv.digestHex [7] = plainEnv.digestHex [7, 0] := by
  have ht : SingleLine "1000" := by decide +kernel
  have hn : SingleLine "nonce" := by decide +kernel
  have hbody : canonical plainEnv hostileTarget.handler.method hostileTarget.path "1000" "nonce" [7] =
      canonical plainEnv hostileTarget.handler.method hostileTarget.path "1000" "nonce" [7, 0] := by
        decide +kernel
  exact ⟨ht, hn, (signed_requests_unambiguous ht ht hn hn hbody).2.2.2.2⟩

end Canonical

end TriNet.CallApi
