import Microservice.Framework.Theorems.HandleRead
import Microservice.Framework.Theorems.RpcCall
import Microservice.Framework.Theorems.ChoiceRemote
import Microservice.Framework.Theorems.Session
import Microservice.Framework.Theorems.TaskPool
import Microservice.Framework.Theorems.RpcHandle
import Microservice.Framework.Theorems.Pending
import Microservice.Framework.Theorems.QueueSize
import Microservice.Framework.Theorems.Readers
import Microservice.Framework.Theorems.Shutdown
import Microservice.Framework.Theorems.AcceptLoop
import Microservice.Framework.Theorems.Balancing
import Microservice.Framework.Theorems.RecvBuf
import Microservice.Framework.Theorems.EtcdDriver
import Microservice.Framework.Theorems.Routing
import Microservice.Framework.Theorems.Resend
import Microservice.Gate.Theorems.Correlation
import Microservice.Gate.Theorems.Access
import Microservice.Gate.Theorems.Isolation
import Microservice.Gate.Theorems.Ordered
import Microservice.Gate.Theorems.OrderCache
import Microservice.Gate.Theorems.Vertify
import Microservice.Gate.Theorems.Exit
import Microservice.Gate.Theorems.Route
import Microservice.Gate.Theorems.GenGid
import Microservice.PushService.Theorems.Route
import Microservice.PushService.Theorems.Delivery
import Microservice.ClientSdk.Theorems.ServiceProxy
import Microservice.Framework.Theorems.HeartBeat
import Microservice.Framework.Theorems.Registrar
import Microservice.Gate.Theorems.AccessReport
import Microservice.Network.Theorems.Client
import Microservice.Network.Theorems.Permission
