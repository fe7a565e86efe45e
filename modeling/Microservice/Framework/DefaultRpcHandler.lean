-- The names of the messages that the framework and the gate have handlers for.
namespace SimpleRpc

def msgC2GRpcRoute : String := "a"
def msgG2SRpcCall : String := "b"
def msgS2GRpcRsp : String := "c"
def msgG2CRpcRsp : String := "d"
def msgG2SRpcCallOrdered : String := "t"
def msgHeartBeatReq : String := "e"
def msgHeartBeatRsp : String := "f"
def msgC2GVertify : String := "g"
def msgGateLogin : String := "h"
def msgGateLogoff : String := "i"
def msgP2GReqListenAddr : String := "j"
def msgP2GPush : String := "m"
def msgG2CPush : String := "n"
def msgS2GRpcAccessReport : String := "r"

end SimpleRpc

-- What `rpcHandle` answers by itself: the inner rpc has no handler, one of its arguments does not decode,
-- or its handler has nothing to respond with.
inductive Refusal
  | notExist (rpcName : String)
  | decodeError (rpcName arg typ err : String)
  | needResponse (rpcName : String)

def Refusal.text : Refusal → String
  | .notExist rpcName                => "rpc " ++ rpcName ++ " not exist"
  | .decodeError rpcName arg typ err =>
    "rpc " ++ rpcName ++ " arg " ++ arg ++ "(" ++ typ ++ ") decode error: " ++ err
  | .needResponse rpcName            => "rpc " ++ rpcName ++ " need response but get nil"
